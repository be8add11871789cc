import LSystem.Expansion
import LSystem.Proofs.Rules

/-! Expansion through the table is substitution by the committed rules: the table finds what the
rules say, and the next generation is made of the images of the symbols. The two halves of the
table settle a repeated symbol in opposite ways, so they agree with the rules only because no
symbol is repeated. -/

namespace LSystem

namespace Table

theorem get?_empty (symbol : Char) : empty.get? symbol = none := by
  unfold get? empty
  split <;> simp

/-- An ASCII symbol takes its last value. -/
theorem get?_add_low (t : Table) {symbol : Char} (low : symbol.toNat < 128) (value : String)
    (other : Char) :
    (t.add symbol value).get? other = if other = symbol then some value else t.get? other := by
  by_cases same : other = symbol
  · subst same
    simp [add, get?, low]
  · have apart : symbol.toNat ≠ other.toNat := fun equal => same (Char.toNat_inj.mp equal.symm)
    simp [add, get?, low, same, Vector.getElem_set_ne, apart]

theorem lookup_concat (entries : List (Char × String)) (own : Char) (value : String)
    (symbol : Char) : (entries ++ [(own, value)]).lookup symbol =
      (entries.lookup symbol).or (if symbol = own then some value else none) := by
  rw [List.lookup_append, Rules.lookup_cons]
  rfl

/-- A symbol beyond ASCII keeps its first value. -/
theorem get?_add_high (t : Table) {symbol : Char} (high : ¬ symbol.toNat < 128) (value : String)
    (other : Char) : (t.add symbol value).get? other =
      (t.get? other).or (if other = symbol then some value else none) := by
  by_cases low : other.toNat < 128
  · have apart : other ≠ symbol := fun equal => high (equal ▸ low)
    simp [add, get?, high, low, apart]
  · simp only [add, get?, dif_neg high, dif_neg low, lookup_concat]

/-- A symbol that is new to the table is handled alike in both halves. -/
theorem get?_add_fresh {t : Table} {symbol : Char} (fresh : t.get? symbol = none)
    (value : String) (other : Char) :
    (t.add symbol value).get? other = if other = symbol then some value else t.get? other := by
  by_cases low : symbol.toNat < 128
  · exact t.get?_add_low low value other
  · rw [t.get?_add_high low]
    by_cases same : other = symbol
    · rw [if_pos same, if_pos same, same, fresh, Option.none_or]
    · rw [if_neg same, if_neg same, Option.or_none]

theorem get?_foldl_add (entries : List (Char × String)) (t : Table) (symbol : Char)
    (distinct : (entries.map Prod.fst).Nodup) (fresh : ∀ e ∈ entries, t.get? e.1 = none) :
    (entries.foldl (fun t e => t.add e.1 e.2) t).get? symbol =
      (entries.lookup symbol).or (t.get? symbol) := by
  induction entries generalizing t with
  | nil => rfl
  | cons e entries ih =>
    obtain ⟨own, value⟩ := e
    obtain ⟨absent, distinct⟩ := List.nodup_cons.mp distinct
    have unset : t.get? own = none := fresh _ List.mem_cons_self
    have later : ∀ e ∈ entries, (t.add own value).get? e.1 = none := by
      intro e mem
      have differ : e.1 ≠ own := fun equal => absent (List.mem_map.mpr ⟨e, mem, equal⟩)
      rw [get?_add_fresh unset, if_neg differ]
      exact fresh e (List.mem_cons_of_mem _ mem)
    rw [List.foldl_cons, ih _ distinct later, get?_add_fresh unset, Rules.lookup_cons]
    by_cases same : symbol = own
    · subst same
      -- No later pair has this symbol, so the ASCII half, which would take its value, and the
      -- other half, which would not, both keep the first one.
      rw [if_pos rfl, if_pos rfl, Rules.lookup_of_absent absent]
      rfl
    · rw [if_neg same, if_neg same]

theorem get?_ofRules (r : Rules) (symbol : Char) :
    (ofRules r).get? symbol = r.committed.get? symbol := by
  rw [ofRules, get?_foldl_add _ _ _ r.committed.distinct fun e _ => get?_empty e.1, get?_empty,
    Option.or_none]
  rfl

theorem ofRules_committed (r : Rules) : ofRules r.committed = ofRules r := by
  simp only [ofRules, Rules.committed_committed]

def image (t : Table) (symbol : Char) : String := (t.get? symbol).getD symbol.toString

theorem foldl_appends {f : String → Char → String} {g : Char → List Char}
    (appends : ∀ out symbol, (f out symbol).toList = out.toList ++ g symbol)
    (symbols : List Char) (out : String) :
    (symbols.foldl f out).toList = out.toList ++ symbols.flatMap g := by
  induction symbols generalizing out with
  | nil => simp
  | cons symbol symbols ih =>
    rw [List.foldl_cons, ih, appends, List.flatMap_cons, List.append_assoc]

theorem next_eq (t : Table) (word : String) :
    t.next word = String.ofList (word.toList.flatMap fun symbol => (t.image symbol).toList) := by
  rw [next, String.foldl_eq_foldl_toList, ← String.toList_inj, String.toList_ofList]
  refine foldl_appends (fun out symbol => ?_) word.toList ""
  cases found : t.get? symbol with
  | none => simp [image, found]
  | some value => simp [image, found]

theorem next_empty (t : Table) : t.next "" = "" := by
  rw [next_eq, String.toList_empty, List.flatMap_nil, String.ofList_nil]

theorem next_append (t : Table) (u v : String) : t.next (u ++ v) = t.next u ++ t.next v := by
  simp only [next_eq, String.toList_append, List.flatMap_append, String.ofList_append]

theorem next_toString (t : Table) (symbol : Char) : t.next symbol.toString = t.image symbol := by
  simp only [next_eq, Char.toString, String.toList_singleton, List.flatMap_singleton,
    String.ofList_toList]

theorem after_congr {t t' : Table} (same : ∀ symbol, t.get? symbol = t'.get? symbol) (n : Nat)
    (word : String) : t.after n word = t'.after n word := by
  have round : ∀ word, t.next word = t'.next word := by
    intro word
    simp only [next_eq, image, same]
  induction n generalizing word with
  | zero => rfl
  | succ n ih => rw [after, after, round, ih]

theorem nextSize_eq (t : Table) (word : String) :
    t.nextSize word =
      word.toList.foldl (fun n symbol => min (n + t.sizeOf symbol) maxSize) 0 :=
  String.foldl_eq_foldl_toList

theorem afterWithin_ok (t : Table) (limit done n : Nat) (word result : String)
    (built : t.afterWithin limit done n word = .ok result) : result = t.after n word := by
  induction n generalizing done word with
  | zero => exact (Except.ok.inj built).symm
  | succ n ih =>
    simp only [afterWithin] at built
    split at built
    · contradiction
    · exact ih (done + 1) (t.next word) built

theorem afterWithin_fewer {t : Table} {limit done n m : Nat} {word result : String}
    (built : t.afterWithin limit done n word = .ok result) (fewer : m ≤ n) :
    ∃ earlier, t.afterWithin limit done m word = .ok earlier := by
  induction m generalizing done n word with
  | zero => exact ⟨word, rfl⟩
  | succ m ih =>
    obtain ⟨n, rfl⟩ := Nat.exists_eq_succ_of_ne_zero (Nat.ne_zero_of_lt fewer)
    simp only [afterWithin] at built ⊢
    split at built
    · contradiction
    · next fits =>
      rw [if_neg fits]
      exact ih built (Nat.le_of_succ_le_succ fewer)

end Table

theorem expand_committed (seed : String) (rules : Rules) (n : Nat) :
    expand seed rules.committed n = expand seed rules n := by
  simp only [expand, Table.ofRules_committed]

theorem expandWithin_committed (seed : String) (rules : Rules) (n limit : Nat) :
    expandWithin seed rules.committed n limit = expandWithin seed rules n limit := by
  simp only [expandWithin, Table.ofRules_committed]

theorem expandWithin_fewer {seed : String} {rules : Rules} {n m limit : Nat} {word : String}
    (built : expandWithin seed rules n limit = .ok word) (fewer : m ≤ n) :
    ∃ earlier, expandWithin seed rules m limit = .ok earlier := by
  unfold expandWithin at built ⊢
  split at built
  · contradiction
  · next fits =>
    rw [if_neg fits]
    exact Table.afterWithin_fewer built fewer

/-- The table finds what the rules say, except for the symbol of a pending rule; so one
generation is made symbol by symbol, and all of them depend on nothing but the replacements of
the other symbols. -/
theorem expansion_substitutes (r : Rules) :
    (∀ symbol, (Table.ofRules r).get? symbol =
      if symbol = Rules.pendingSymbol then none else r.get? symbol) ∧
    step "" r = "" ∧ (∀ u v, step (u ++ v) r = step u r ++ step v r) ∧
    (∀ symbol value, r.committed.get? symbol = some value → step symbol.toString r = value) ∧
    (∀ symbol, r.committed.get? symbol = none → step symbol.toString r = symbol.toString) ∧
    ∀ other : Rules,
      (∀ symbol, symbol ≠ Rules.pendingSymbol → r.get? symbol = other.get? symbol) →
      ∀ seed n, expand seed r n = expand seed other n := by
  have found : ∀ (r : Rules) symbol, (Table.ofRules r).get? symbol =
      if symbol = Rules.pendingSymbol then none else r.get? symbol := by
    intro r symbol
    rw [Table.get?_ofRules, Rules.get?_committed]
  refine ⟨found r, Table.next_empty _, Table.next_append _, ?_, ?_, ?_⟩
  · intro symbol value given
    rw [step, Table.next_toString, Table.image, Table.get?_ofRules, given, Option.getD_some]
  · intro symbol missing
    rw [step, Table.next_toString, Table.image, Table.get?_ofRules, missing, Option.getD_none]
  · intro other agree seed n
    refine Table.after_congr (fun symbol => ?_) n seed
    rw [found, found]
    by_cases pending : symbol = Rules.pendingSymbol
    · rw [if_pos pending, if_pos pending]
    · rw [if_neg pending, if_neg pending, agree symbol pending]

/-- A symbol of each half of the table, and the same rules in another order with a pending one
among them. -/
theorem reordered_expansion_substitutes :
    let r := Rules.ofPairs [('F', "FŁ"), ('Ł', "F")]
    let other := Rules.ofPairs [('Ł', "F"), (' ', "+"), ('F', "FŁ")]
    step 'Ł'.toString r = "F" ∧ step '+'.toString r = '+'.toString ∧
      ∀ n, expand "F" r n = expand "F" other n := by
  intro r other
  obtain ⟨_, _, _, given, missing, agree⟩ := expansion_substitutes r
  refine ⟨given 'Ł' "F" (by decide), missing '+' (by decide), agree other ?_ "F"⟩
  intro symbol named
  have blank : symbol ≠ ' ' := named
  have first : r.entries = [('F', "FŁ"), ('Ł', "F")] := by decide
  have second : other.entries = [('Ł', "F"), (' ', "+"), ('F', "FŁ")] := by decide
  simp only [Rules.get?, first, second, Rules.lookup_cons, List.lookup_nil, if_neg blank]
  by_cases plain : symbol = 'F'
  · subst plain
    rfl
  · simp only [if_neg plain]

theorem expandWithin_ok (seed : String) (rules : Rules) (n limit : Nat) (word : String)
    (built : expandWithin seed rules n limit = .ok word) : word = expand seed rules n := by
  unfold expandWithin at built
  split at built
  · contradiction
  · exact Table.afterWithin_ok _ limit 0 n seed word built

end LSystem
