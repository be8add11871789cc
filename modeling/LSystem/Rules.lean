/-!
The rules of a grammar: an ordered list of pairs "symbol, replacement" with pairwise distinct
symbols. The order is the order of insertion; replacing a value or renaming a symbol keeps the
position. One symbol, `Rules.pendingSymbol`, marks a rule that has been opened but not named yet.
-/

namespace LSystem

/-- Rules in order. Distinctness is part of the type, so a symbol has at most one rule. -/
@[ext]
structure Rules where
  entries : List (Char × String)
  distinct : (entries.map Prod.fst).Nodup
deriving DecidableEq

namespace Rules

/-- The symbol of a rule that has no name yet. Expansion never applies such a rule. -/
def pendingSymbol : Char := ' '

def empty : Rules := ⟨[], List.nodup_nil⟩

instance : Inhabited Rules := ⟨empty⟩

def symbols (r : Rules) : List Char := r.entries.map Prod.fst

/-- Number of rules, a pending one included. -/
def size (r : Rules) : Nat := r.entries.length

def isEmpty (r : Rules) : Bool := r.entries.isEmpty

def get? (r : Rules) (symbol : Char) : Option String := r.entries.lookup symbol

def contains (r : Rules) (symbol : Char) : Bool := r.symbols.contains symbol

def position? (r : Rules) (symbol : Char) : Option Nat := r.symbols.idxOf? symbol

def nth? (r : Rules) (i : Nat) : Option (Char × String) := r.entries[i]?

/-- Whether an unnamed rule is pending. -/
def hasPending (r : Rules) : Bool := r.contains pendingSymbol

theorem mem_symbols_iff_contains {r : Rules} {symbol : Char} :
    symbol ∈ r.symbols ↔ r.contains symbol = true := by
  simp [contains]

/-- Appends a rule; refused when the symbol has one already. -/
def append? (r : Rules) (symbol : Char) (value : String) : Option Rules :=
  if h : symbol ∈ r.symbols then none
  else some
    { entries := r.entries ++ [(symbol, value)]
      distinct := by
        rw [List.map_append, List.nodup_append]
        refine ⟨r.distinct, by simp, ?_⟩
        intro a ha b hb
        simp only [List.map_cons, List.map_nil, List.mem_singleton] at hb
        rintro rfl
        exact h (hb ▸ ha) }

/-- Changes the values in place; symbols and order stay. -/
def mapValues (r : Rules) (f : Char → String → String) : Rules where
  entries := r.entries.map fun e => (e.1, f e.1 e.2)
  distinct := by simpa [List.map_map, Function.comp_def] using r.distinct

/-- Sets the value of `symbol`: in place when it has a rule, in a new last rule otherwise. -/
def insert (r : Rules) (symbol : Char) (value : String) : Rules :=
  (r.append? symbol value).getD
    (r.mapValues fun s old => if s = symbol then value else old)

/-- The rules whose symbol passes `keep`, in order. -/
def restrict (r : Rules) (keep : Char → Bool) : Rules where
  entries := r.entries.filter fun e => keep e.1
  distinct := r.distinct.sublist (List.Sublist.map _ List.filter_sublist)

def erase (r : Rules) (symbol : Char) : Rules := r.restrict (· ≠ symbol)

/-- The rules that expansion applies: all but a pending one. -/
def committed (r : Rules) : Rules := r.restrict (· ≠ pendingSymbol)

theorem nodup_set_of_notMem {xs : List Char} {i : Nat} {x : Char} (nodup : xs.Nodup)
    (fresh : x ∉ xs) : (xs.set i x).Nodup := by
  induction xs generalizing i with
  | nil => exact nodup
  | cons y ys ih =>
    have head := List.nodup_cons.mp nodup
    have apart := not_or.mp (fun h => fresh (List.mem_cons.mpr h))
    cases i with
    | zero => exact List.nodup_cons.mpr ⟨apart.2, head.2⟩
    | succ i =>
      refine List.nodup_cons.mpr ⟨fun mem => ?_, ih head.2 apart.2⟩
      rcases List.mem_or_eq_of_mem_set mem with old | new
      · exact head.1 old
      · exact apart.1 new.symm

/-- Gives the rule at position `i` another symbol, in place. Refused when there is no such
rule or when another rule has the symbol; its own symbol is accepted and changes nothing. -/
def rename? (r : Rules) (i : Nat) (symbol : Char) : Option Rules :=
  match r.nth? i with
  | none => none
  | some (old, value) =>
    if old = symbol then some r
    else if h : symbol ∈ r.symbols then none
    else some
      { entries := r.entries.set i (symbol, value)
        distinct := by
          rw [List.map_set]
          exact nodup_set_of_notMem r.distinct h }

def modifyValue (r : Rules) (i : Nat) (f : String → String) : Rules where
  entries := r.entries.modify i fun e => (e.1, f e.2)
  distinct := by
    have same : (r.entries.modify i fun e => (e.1, f e.2)).map Prod.fst =
        r.entries.map Prod.fst := by
      apply List.ext_getElem?
      intro j
      simp only [List.getElem?_map, List.getElem?_modify]
      by_cases at_i : i = j <;> cases r.entries[j]? <;> simp [at_i]
    rw [same]
    exact r.distinct

def value? (r : Rules) (i : Nat) : Option String := (r.nth? i).map Prod.snd

/-- Inserts the pairs one after another, so that a repeated symbol keeps its first position
and its last value. -/
def ofPairs (pairs : List (Char × String)) : Rules :=
  pairs.foldl (fun r e => r.insert e.1 e.2) empty

/-- The text of the rules: `k -> v`, joined by commas. -/
def text (r : Rules) : String :=
  ", ".intercalate (r.entries.map fun e => e.1.toString ++ " -> " ++ e.2)

instance : ToString Rules := ⟨text⟩

end Rules

end LSystem
