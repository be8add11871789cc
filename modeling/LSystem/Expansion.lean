import LSystem.Rules

/-!
Expansion: one generation replaces every symbol that has a committed rule by the rule's
replacement and keeps every other symbol. Growth is often exponential, so the bounded form
computes the size of a generation, in bytes of UTF-8, before it builds it.
-/

namespace LSystem

/-- The largest size that is reported; a larger one is reported as this. -/
def maxSize : Nat := Nat.pow 2 64 - 1

/-- Look-up of replacements: a slot for each ASCII symbol and a list for the others. -/
structure Table where
  ascii : Vector (Option String) 128
  others : List (Char × String)

namespace Table

def empty : Table := ⟨Vector.replicate 128 none, []⟩

def add (t : Table) (symbol : Char) (value : String) : Table :=
  if h : symbol.toNat < 128 then { t with ascii := t.ascii.set symbol.toNat (some value) }
  else { t with others := t.others ++ [(symbol, value)] }

def ofRules (r : Rules) : Table :=
  r.committed.entries.foldl (fun t e => t.add e.1 e.2) empty

def get? (t : Table) (symbol : Char) : Option String :=
  if h : symbol.toNat < 128 then t.ascii[symbol.toNat] else t.others.lookup symbol

/-- The bytes that `symbol` becomes. -/
def sizeOf (t : Table) (symbol : Char) : Nat :=
  match t.get? symbol with
  | some value => value.utf8ByteSize
  | none => symbol.utf8Size

/-- The size of the next generation, as it is reported, without building it. -/
def nextSize (t : Table) (word : String) : Nat :=
  word.foldl (fun n c => min (n + t.sizeOf c) maxSize) 0

def next (t : Table) (word : String) : String :=
  word.foldl (fun out c => match t.get? c with
    | some value => out ++ value
    | none => out.push c) ""

def after (t : Table) : Nat → String → String
  | 0, word => word
  | n + 1, word => t.after n (t.next word)

end Table

/-- Refusal of a generation that is larger than the limit. -/
structure Oversize where
  limit : Nat
  needed : Nat
  reached : Nat
deriving DecidableEq, Repr

def Oversize.message (e : Oversize) : String :=
  "expansion too large: iteration " ++ toString (e.reached + 1) ++ " needs " ++
    toString e.needed ++ " symbols (limit " ++ toString e.limit ++ ")"

def step (word : String) (rules : Rules) : String := (Table.ofRules rules).next word

/-- Generation `n` of `seed`, whatever its size. -/
def expand (seed : String) (rules : Rules) (n : Nat) : String :=
  (Table.ofRules rules).after n seed

/-- Generation `n` after `done` rounds; refused at the first one above the limit. -/
def Table.afterWithin (t : Table) (limit : Nat) :
    (done n : Nat) → String → Except Oversize String
  | _, 0, word => .ok word
  | done, n + 1, word =>
    let needed := t.nextSize word
    if limit < needed then .error { limit, needed, reached := done }
    else t.afterWithin limit (done + 1) n (t.next word)

/-- Generation `n` of `seed`, refused when it or a generation before it, the seed included,
is larger than `limit` bytes. -/
def expandWithin (seed : String) (rules : Rules) (n limit : Nat) : Except Oversize String :=
  if limit < seed.utf8ByteSize then
    .error { limit, needed := seed.utf8ByteSize, reached := 0 }
  else (Table.ofRules rules).afterWithin limit 0 n seed

end LSystem
