import LSystem.Rules

/-! What the operations on rules do to look-ups, to the number of rules, and to the rules that
expansion applies. -/

namespace LSystem.Rules

theorem lookup_cons (own : Char) (value : String) (entries : List (Char × String))
    (symbol : Char) : ((own, value) :: entries).lookup symbol =
      if symbol = own then some value else entries.lookup symbol := by
  by_cases same : symbol = own
  · subst same
    simp
  · have miss : (symbol == own) = false := beq_false_of_ne same
    rw [if_neg same, List.lookup_cons, miss]

theorem lookup_of_absent {entries : List (Char × String)} {symbol : Char}
    (absent : symbol ∉ entries.map Prod.fst) : entries.lookup symbol = none := by
  rw [List.lookup_eq_none_iff]
  intro e mem
  have differ : symbol ≠ e.1 := fun equal => absent (List.mem_map.mpr ⟨e, mem, equal.symm⟩)
  simpa using differ

theorem lookup_filter (entries : List (Char × String)) (keep : Char → Bool) (symbol : Char) :
    (entries.filter fun e => keep e.1).lookup symbol =
      if keep symbol then entries.lookup symbol else none := by
  induction entries with
  | nil => simp
  | cons e entries ih =>
    obtain ⟨own, value⟩ := e
    rw [List.filter_cons, lookup_cons]
    by_cases same : symbol = own
    · subst same
      cases kept : keep symbol with
      | true => simp
      | false => simpa [kept] using ih
    · rw [if_neg same, ← ih]
      cases kept : keep own with
      | true => simp [lookup_cons, same]
      | false => simp

theorem mem_of_get? {r : Rules} {symbol : Char} {value : String}
    (found : r.get? symbol = some value) : (symbol, value) ∈ r.entries := by
  obtain ⟨front, behind, parts, _⟩ := List.lookup_eq_some_iff.mp found
  rw [parts]
  exact List.mem_append_right _ List.mem_cons_self

theorem get?_restrict (r : Rules) (keep : Char → Bool) (symbol : Char) :
    (r.restrict keep).get? symbol = if keep symbol then r.get? symbol else none :=
  lookup_filter r.entries keep symbol

theorem get?_committed (r : Rules) (symbol : Char) :
    r.committed.get? symbol = if symbol = pendingSymbol then none else r.get? symbol := by
  rw [committed, get?_restrict]
  by_cases pending : symbol = pendingSymbol
  · simp [pending]
  · simp [pending]

theorem committed_committed (r : Rules) : r.committed.committed = r.committed := by
  ext1
  simp only [committed, restrict, List.filter_filter, Bool.and_self]

theorem hasPending_committed (r : Rules) : r.committed.hasPending = false := by
  rw [hasPending, ← Bool.not_eq_true, ← mem_symbols_iff_contains, symbols, List.mem_map]
  rintro ⟨e, mem, pending⟩
  have kept := (List.mem_filter.mp mem).2
  simp [pending] at kept

theorem entries_append? {r next : Rules} {symbol : Char} {value : String}
    (appended : r.append? symbol value = some next) :
    next.entries = r.entries ++ [(symbol, value)] := by
  unfold append? at appended
  split at appended
  · contradiction
  · cases appended
    rfl

theorem committed_append_pending {r next : Rules} {value : String}
    (appended : r.append? pendingSymbol value = some next) : next.committed = r.committed := by
  ext1
  simp [committed, restrict, entries_append? appended]

theorem size_append? {r next : Rules} {symbol : Char} {value : String}
    (appended : r.append? symbol value = some next) : next.size = r.size + 1 := by
  rw [size, entries_append? appended, List.length_append]
  rfl

theorem size_rename? {r next : Rules} {i : Nat} {symbol : Char}
    (renamed : r.rename? i symbol = some next) : next.size = r.size := by
  unfold rename? at renamed
  split at renamed
  · contradiction
  · split at renamed
    · cases renamed
      rfl
    · split at renamed
      · contradiction
      · cases renamed
        exact List.length_set

theorem size_modifyValue (r : Rules) (i : Nat) (change : String → String) :
    (r.modifyValue i change).size = r.size :=
  List.length_modify _ _ _

end LSystem.Rules
