import LSystem.Proofs.Rules

/-! Rules as an ordered map. Each operation is described by the positions whose entries it changes,
and look-ups by symbol agree with those by position. The same operations on a bare list of entries
stop at the first entry that they find and promise nothing about the others; over every run the two
agree, so the symbols of the bare list stay distinct as well. -/

namespace LSystem.Rules

/-- An operation on rules. -/
inductive Edit where
  | ofPairs (pairs : List (Char × String))
  | insert (symbol : Char) (value : String)
  | append (symbol : Char) (value : String)
  | erase (symbol : Char)
  | rename (i : Nat) (symbol : Char)
  | modifyValue (i : Nat) (change : String → String)
  | commit

/-- The rules after an operation; one that is refused leaves them. -/
def perform (r : Rules) : Edit → Rules
  | .ofPairs pairs => .ofPairs pairs
  | .insert symbol value => r.insert symbol value
  | .append symbol value => (r.append? symbol value).getD r
  | .erase symbol => r.erase symbol
  | .rename i symbol => (r.rename? i symbol).getD r
  | .modifyValue i change => r.modifyValue i change
  | .commit => r.committed

/-- Whether an operation is accepted. -/
def accepts (r : Rules) : Edit → Bool
  | .append symbol value => (r.append? symbol value).isSome
  | .erase symbol => (r.get? symbol).isSome
  | .rename i symbol => (r.rename? i symbol).isSome
  | .modifyValue i _ => (r.value? i).isSome
  | .ofPairs _ | .insert _ _ | .commit => true

def run (edits : List Edit) : Rules := edits.foldl perform empty

/-! ### Look-ups -/

theorem nth?_inj {r : Rules} {i j : Nat} {a b : Char × String} (first : r.nth? i = some a)
    (second : r.nth? j = some b) (same : a.1 = b.1) : i = j := by
  have inside : i < r.symbols.length := by
    rw [symbols, List.length_map]
    exact (List.getElem?_eq_some_iff.mp first).1
  refine (List.getElem?_inj inside r.distinct).mp ?_
  change (r.entries.map Prod.fst)[i]? = (r.entries.map Prod.fst)[j]?
  rw [List.getElem?_map, List.getElem?_map]
  change (r.nth? i).map Prod.fst = (r.nth? j).map Prod.fst
  rw [first, second]
  exact congrArg some same

theorem mem_symbols_of_nth? {r : Rules} {i : Nat} {symbol : Char} {value : String}
    (here : r.nth? i = some (symbol, value)) : symbol ∈ r.symbols :=
  List.mem_map.mpr ⟨_, List.mem_of_getElem? here, rfl⟩

theorem position?_eq_findIdx? (r : Rules) (symbol : Char) :
    r.position? symbol = r.entries.findIdx? fun e => e.1 == symbol :=
  List.findIdx?_map

theorem position?_eq_some_iff {r : Rules} {symbol : Char} {i : Nat} :
    r.position? symbol = some i ↔ ∃ value, r.nth? i = some (symbol, value) := by
  have sound : ∀ {i}, r.position? symbol = some i → ∃ value, r.nth? i = some (symbol, value) := by
    intro i found
    rw [position?_eq_findIdx?] at found
    obtain ⟨inside, here, _⟩ := List.findIdx?_eq_some_iff_getElem.mp found
    refine ⟨r.entries[i].2, ?_⟩
    rw [nth?, List.getElem?_eq_getElem inside, ← eq_of_beq here]
  refine ⟨sound, ?_⟩
  rintro ⟨value, here⟩
  have mem := mem_symbols_of_nth? here
  obtain ⟨j, found⟩ := Option.isSome_iff_exists.mp (List.isSome_idxOf?.mpr mem)
  obtain ⟨other, there⟩ := sound found
  rw [nth?_inj here there rfl]
  exact found

theorem position?_eq_none_iff {r : Rules} {symbol : Char} :
    r.position? symbol = none ↔ symbol ∉ r.symbols :=
  List.idxOf?_eq_none_iff

theorem mem_symbols_of_position? {r : Rules} {symbol : Char} {i : Nat}
    (position : r.position? symbol = some i) : symbol ∈ r.symbols :=
  List.isSome_idxOf?.mp (Option.isSome_of_eq_some position)

theorem get?_eq_some_iff {r : Rules} {symbol : Char} {value : String} :
    r.get? symbol = some value ↔ ∃ i, r.nth? i = some (symbol, value) := by
  constructor
  · intro found
    exact List.getElem?_of_mem (mem_of_get? found)
  · rintro ⟨i, here⟩
    obtain ⟨inside, entry⟩ := List.getElem?_eq_some_iff.mp here
    refine List.lookup_eq_some_iff.mpr ⟨r.entries.take i, r.entries.drop (i + 1), ?_, ?_⟩
    · rw [← entry, List.getElem_cons_drop, List.take_append_drop]
    · intro e mem
      obtain ⟨j, shorter, there⟩ := List.mem_take_iff_getElem.mp mem
      have found : r.nth? j = some e := List.getElem?_eq_some_iff.mpr ⟨by omega, there⟩
      have apart : symbol ≠ e.1 := fun same => by
        have position := nth?_inj here found same
        omega
      simpa using apart

/-! ### Operations -/

theorem append?_eq_none_iff {r : Rules} {symbol : Char} {value : String} :
    r.append? symbol value = none ↔ symbol ∈ r.symbols := by
  unfold append?
  split
  · next taken => exact iff_of_true rfl taken
  · next free => exact iff_of_false (Option.some_ne_none _) free

theorem entries_insert_new {r : Rules} {symbol : Char} (free : symbol ∉ r.symbols)
    (value : String) : (r.insert symbol value).entries = r.entries ++ [(symbol, value)] := by
  cases appended : r.append? symbol value with
  | none => exact absurd (append?_eq_none_iff.mp appended) free
  | some next =>
    rw [insert, appended, Option.getD_some]
    exact entries_append? appended

theorem entries_insert_old {r : Rules} {symbol : Char} {old : String} {i : Nat}
    (here : r.nth? i = some (symbol, old)) (value : String) :
    (r.insert symbol value).entries = r.entries.set i (symbol, value) := by
  rw [insert, append?_eq_none_iff.mpr (mem_symbols_of_nth? here), Option.getD_none]
  have inside := (List.getElem?_eq_some_iff.mp here).1
  refine List.ext_getElem? fun j => ?_
  rw [mapValues, List.getElem?_map, List.getElem?_set]
  by_cases at_i : i = j
  · subst at_i
    change (r.nth? i).map _ = _
    rw [here, if_pos rfl, if_pos inside, Option.map_some, if_pos rfl]
  · rw [if_neg at_i]
    cases there : r.entries[j]? with
    | none => rfl
    | some e =>
      have apart : e.1 ≠ symbol := fun same => at_i (nth?_inj here there same.symm)
      rw [Option.map_some, if_neg apart]

theorem filter_of_absent {entries : List (Char × String)} {symbol : Char}
    (absent : symbol ∉ entries.map Prod.fst) :
    (entries.filter fun e => e.1 ≠ symbol) = entries := by
  refine List.filter_eq_self.mpr fun e mem => ?_
  have apart : e.1 ≠ symbol := fun same => absent (List.mem_map.mpr ⟨e, mem, same⟩)
  simpa using apart

theorem filter_eq_eraseIdx {entries : List (Char × String)} (distinct : (entries.map Prod.fst).Nodup)
    {i : Nat} {e : Char × String} (here : entries[i]? = some e) :
    (entries.filter fun x => x.1 ≠ e.1) = entries.eraseIdx i := by
  induction entries generalizing i with
  | nil => contradiction
  | cons x entries ih =>
    obtain ⟨absent, later⟩ := List.nodup_cons.mp distinct
    cases i with
    | zero =>
      obtain rfl : x = e := Option.some.inj here
      simpa using filter_of_absent absent
    | succ i =>
      have mem : e ∈ entries := List.mem_of_getElem? here
      have apart : x.1 ≠ e.1 := fun same => absent (List.mem_map.mpr ⟨e, mem, same.symm⟩)
      rw [List.filter_cons_of_pos (by simpa using apart), List.eraseIdx_cons_succ, ih later here]

theorem entries_erase {r : Rules} {symbol : Char} {value : String} {i : Nat}
    (here : r.nth? i = some (symbol, value)) : (r.erase symbol).entries = r.entries.eraseIdx i :=
  filter_eq_eraseIdx r.distinct here

theorem erase_of_absent {r : Rules} {symbol : Char} (absent : symbol ∉ r.symbols) :
    r.erase symbol = r := by
  ext1
  exact filter_of_absent absent

theorem rename?_isSome_iff {r : Rules} {i : Nat} {symbol : Char} :
    (r.rename? i symbol).isSome ↔
      ∃ old value, r.nth? i = some (old, value) ∧ (old = symbol ∨ symbol ∉ r.symbols) := by
  unfold rename?
  cases here : r.nth? i with
  | none => simp
  | some e =>
    obtain ⟨old, value⟩ := e
    by_cases own : old = symbol
    · simp [own]
    · by_cases taken : symbol ∈ r.symbols <;> simp [own, taken]

theorem entries_rename? {r next : Rules} {i : Nat} {symbol : Char}
    (renamed : r.rename? i symbol = some next) :
    ∃ old value, r.nth? i = some (old, value) ∧
      next.entries = r.entries.set i (symbol, value) := by
  unfold rename? at renamed
  split at renamed
  · contradiction
  · next old value here =>
    refine ⟨old, value, here, ?_⟩
    split at renamed
    · next own =>
      cases renamed
      obtain ⟨inside, entry⟩ := List.getElem?_eq_some_iff.mp here
      rw [← own, ← entry, List.set_getElem_self]
    · split at renamed
      · contradiction
      · cases renamed
        rfl

theorem entries_modifyValue {r : Rules} {i : Nat} {symbol : Char} {value : String}
    (here : r.nth? i = some (symbol, value)) (change : String → String) :
    (r.modifyValue i change).entries = r.entries.set i (symbol, change value) := by
  have found : r.entries[i]? = some (symbol, value) := here
  change r.entries.modify i _ = _
  rw [List.modify_eq_set, found, Option.getD_some]

theorem modifyValue_of_outside {r : Rules} {i : Nat} (outside : r.nth? i = none)
    (change : String → String) : r.modifyValue i change = r := by
  ext1
  exact List.modify_eq_self (List.getElem?_eq_none_iff.mp outside)

theorem get?_mapValues (r : Rules) (change : Char → String → String) (symbol : Char) :
    (r.mapValues change).get? symbol = (r.get? symbol).map (change symbol) := by
  change (r.entries.map fun e => (e.1, change e.1 e.2)).lookup symbol = _
  unfold get?
  induction r.entries with
  | nil => rfl
  | cons e entries ih =>
    rw [List.map_cons, lookup_cons, lookup_cons, ih]
    by_cases same : symbol = e.1
    · subst same
      rw [if_pos rfl, if_pos rfl, Option.map_some]
    · rw [if_neg same, if_neg same]

theorem get?_insert (r : Rules) (own : Char) (value : String) (symbol : Char) :
    (r.insert own value).get? symbol = if symbol = own then some value else r.get? symbol := by
  cases position : r.position? own with
  | none =>
    have free := position?_eq_none_iff.mp position
    rw [get?, entries_insert_new free, List.lookup_append, lookup_cons, List.lookup_nil, get?]
    by_cases same : symbol = own
    · subst same
      rw [lookup_of_absent free, if_pos rfl, Option.none_or]
    · rw [if_neg same, if_neg same, Option.or_none]
  | some i =>
    obtain ⟨old, here⟩ := position?_eq_some_iff.mp position
    have found : r.get? own = some old := get?_eq_some_iff.mpr ⟨i, here⟩
    rw [insert, append?_eq_none_iff.mpr (mem_symbols_of_nth? here), Option.getD_none,
      get?_mapValues]
    by_cases same : symbol = own
    · subst same
      rw [found, Option.map_some, if_pos rfl, if_pos rfl]
    · simp [same]

theorem get?_ofPairs (pairs : List (Char × String)) (symbol : Char) :
    (ofPairs pairs).get? symbol = pairs.reverse.lookup symbol := by
  have fold : ∀ (pairs : List (Char × String)) (r : Rules),
      (pairs.foldl (fun r e => r.insert e.1 e.2) r).get? symbol =
        (pairs.reverse.lookup symbol).or (r.get? symbol) := by
    intro pairs
    induction pairs with
    | nil => exact fun _ => rfl
    | cons e pairs ih =>
      intro r
      rw [List.foldl_cons, ih, List.reverse_cons, List.lookup_append, get?_insert, lookup_cons]
      by_cases same : symbol = e.1
      · simp [same]
      · simp [same]
  rw [ofPairs, fold]
  exact Option.or_none

/-! ### Bare lists of entries -/

/-- The position of the first entry for a symbol. -/
def first? (entries : List (Char × String)) (symbol : Char) : Option Nat :=
  entries.findIdx? fun e => e.1 == symbol

/-- The entry takes the place of the first one for its symbol, or the last place. -/
def put (entries : List (Char × String)) (e : Char × String) : List (Char × String) :=
  match first? entries e.1 with
  | some i => entries.set i e
  | none => entries ++ [e]

/-- What an operation makes of a list of entries whose symbols need not be distinct. -/
def Edit.onEntries (entries : List (Char × String)) : Edit → List (Char × String)
  | .ofPairs pairs => pairs.foldl put []
  | .insert symbol value => put entries (symbol, value)
  | .append symbol value =>
    if (first? entries symbol).isSome then entries else entries ++ [(symbol, value)]
  | .erase symbol =>
    match first? entries symbol with
    | some i => entries.eraseIdx i
    | none => entries
  | .rename i symbol =>
    match entries[i]? with
    | some (old, value) =>
      if old = symbol then entries
      else if (first? entries symbol).isSome then entries
      else entries.set i (symbol, value)
    | none => entries
  | .modifyValue i change =>
    match entries[i]? with
    | some (symbol, value) => entries.set i (symbol, change value)
    | none => entries
  | .commit => entries.filter fun e => e.1 ≠ pendingSymbol

theorem entries_insert (r : Rules) (symbol : Char) (value : String) :
    (r.insert symbol value).entries = put r.entries (symbol, value) := by
  unfold put first?
  rw [← position?_eq_findIdx?]
  cases position : r.position? symbol with
  | none => exact entries_insert_new (position?_eq_none_iff.mp position) value
  | some i =>
    obtain ⟨old, here⟩ := position?_eq_some_iff.mp position
    exact entries_insert_old here value

theorem isSome_first? (r : Rules) (symbol : Char) :
    (first? r.entries symbol).isSome ↔ symbol ∈ r.symbols := by
  rw [first?, ← position?_eq_findIdx?]
  exact List.isSome_idxOf?

theorem entries_perform (r : Rules) (edit : Edit) :
    (r.perform edit).entries = edit.onEntries r.entries := by
  cases edit with
  | ofPairs pairs =>
    exact (List.foldl_hom entries fun r e => (r.entries_insert e.1 e.2).symm).symm
  | insert symbol value => exact r.entries_insert symbol value
  | append symbol value =>
    simp only [perform, Edit.onEntries, isSome_first?]
    cases appended : r.append? symbol value with
    | none => rw [if_pos (append?_eq_none_iff.mp appended), Option.getD_none]
    | some next =>
      have free : symbol ∉ r.symbols := fun taken => by
        rw [append?_eq_none_iff.mpr taken] at appended
        contradiction
      rw [if_neg free, Option.getD_some, entries_append? appended]
  | erase symbol =>
    simp only [perform, Edit.onEntries, first?, ← position?_eq_findIdx?]
    cases position : r.position? symbol with
    | none => rw [erase_of_absent (position?_eq_none_iff.mp position)]
    | some i =>
      obtain ⟨value, here⟩ := position?_eq_some_iff.mp position
      exact entries_erase here
  | rename i symbol =>
    simp only [perform, Edit.onEntries, isSome_first?, rename?, nth?]
    cases r.entries[i]? with
    | none => rfl
    | some e =>
      by_cases own : e.1 = symbol
      · simp only [if_pos own, Option.getD_some]
      · by_cases taken : symbol ∈ r.symbols
        · simp only [if_neg own, dif_pos taken, if_pos taken, Option.getD_none]
        · simp only [if_neg own, dif_neg taken, if_neg taken, Option.getD_some]
  | modifyValue i change =>
    simp only [perform, Edit.onEntries]
    cases here : r.entries[i]? with
    | none => rw [modifyValue_of_outside here]
    | some e => exact entries_modifyValue here change
  | commit => rfl

theorem entries_run (edits : List Edit) :
    (run edits).entries = edits.foldl Edit.onEntries [] :=
  (List.foldl_hom entries fun r edit => (r.entries_perform edit).symm).symm

/-! ### Runs -/

/-- Look-ups by symbol and by position agree. -/
structure Consistent (r : Rules) : Prop where
  distinct : ∀ i j a b, r.nth? i = some a → r.nth? j = some b → a.1 = b.1 → i = j
  get?_iff : ∀ symbol value, r.get? symbol = some value ↔ ∃ i, r.nth? i = some (symbol, value)
  position?_iff : ∀ symbol i, r.position? symbol = some i ↔ ∃ value, r.nth? i = some (symbol, value)

theorem consistent (r : Rules) : r.Consistent where
  distinct _ _ _ _ := nth?_inj
  get?_iff _ _ := get?_eq_some_iff
  position?_iff _ _ := position?_eq_some_iff

/-- The law of an operation that leads from `r` to `next`: when it is accepted, and which entries
it changes. -/
def Lawful (r next : Rules) : Edit → Prop
  | .ofPairs pairs => ∀ symbol, next.get? symbol = pairs.reverse.lookup symbol
  | .insert symbol value =>
    (r.position? symbol = none → next.entries = r.entries ++ [(symbol, value)]) ∧
    ∀ i, r.position? symbol = some i → next.entries = r.entries.set i (symbol, value)
  | .append symbol value =>
    (r.accepts (.append symbol value) ↔ r.position? symbol = none) ∧
    (r.position? symbol = none → next.entries = r.entries ++ [(symbol, value)])
  | .erase symbol =>
    (r.accepts (.erase symbol) ↔ ∃ i, r.position? symbol = some i) ∧
    ∀ i, r.position? symbol = some i → next.entries = r.entries.eraseIdx i
  | .rename i symbol =>
    (r.accepts (.rename i symbol) ↔
      ∃ old value, r.nth? i = some (old, value) ∧ (old = symbol ∨ r.position? symbol = none)) ∧
    (r.accepts (.rename i symbol) → ∀ old value, r.nth? i = some (old, value) →
      next.entries = r.entries.set i (symbol, value))
  | .modifyValue i change =>
    (r.accepts (.modifyValue i change) ↔ i < r.size) ∧
    ∀ symbol value, r.nth? i = some (symbol, value) →
      next.entries = r.entries.set i (symbol, change value)
  | .commit =>
    next.entries = r.entries.filter (fun e => e.1 ≠ pendingSymbol) ∧
    ∀ i, r.position? pendingSymbol = some i → next.entries = r.entries.eraseIdx i

theorem perform_lawful (r : Rules) (edit : Edit) : r.Lawful (r.perform edit) edit := by
  cases edit with
  | ofPairs pairs => exact get?_ofPairs pairs
  | insert symbol value =>
    refine ⟨fun free => entries_insert_new (position?_eq_none_iff.mp free) value, ?_⟩
    intro i position
    obtain ⟨old, here⟩ := position?_eq_some_iff.mp position
    exact entries_insert_old here value
  | append symbol value =>
    refine ⟨?_, fun free => ?_⟩
    · rw [accepts, Option.isSome_iff_ne_none, ne_eq, append?_eq_none_iff, position?_eq_none_iff]
    · have fresh := position?_eq_none_iff.mp free
      rw [entries_perform, Edit.onEntries, if_neg (mt (isSome_first? r symbol).mp fresh)]
  | erase symbol =>
    refine ⟨?_, fun i position => ?_⟩
    · simp only [accepts, Option.isSome_iff_exists, get?_eq_some_iff, position?_eq_some_iff]
      exact exists_comm
    · obtain ⟨value, here⟩ := position?_eq_some_iff.mp position
      exact entries_erase here
  | rename i symbol =>
    refine ⟨?_, fun accepted old value here => ?_⟩
    · rw [position?_eq_none_iff]
      exact rename?_isSome_iff
    · obtain ⟨next, renamed⟩ := Option.isSome_iff_exists.mp accepted
      obtain ⟨_, _, there, entries⟩ := entries_rename? renamed
      cases here.symm.trans there
      rw [perform, renamed, Option.getD_some, entries]
  | modifyValue i change =>
    refine ⟨?_, fun symbol value here => entries_modifyValue here change⟩
    rw [accepts, value?, Option.isSome_map, nth?, isSome_getElem?, size]
  | commit =>
    refine ⟨rfl, fun i position => ?_⟩
    obtain ⟨value, here⟩ := position?_eq_some_iff.mp position
    exact entries_erase here

theorem perform_of_refused {r : Rules} {edit : Edit} (refused : r.accepts edit = false) :
    r.perform edit = r := by
  cases edit with
  | ofPairs | insert | commit => contradiction
  | append symbol value =>
    have none : r.append? symbol value = none := by simpa [accepts] using refused
    rw [perform, none, Option.getD_none]
  | erase symbol =>
    have none : r.get? symbol = none := by simpa [accepts] using refused
    refine erase_of_absent fun taken => ?_
    obtain ⟨e, mem, rfl⟩ := List.mem_map.mp taken
    obtain ⟨i, here⟩ := List.getElem?_of_mem mem
    rw [get?_eq_some_iff.mpr ⟨i, here⟩] at none
    contradiction
  | rename i symbol =>
    have none : r.rename? i symbol = none := by simpa [accepts] using refused
    rw [perform, none, Option.getD_none]
  | modifyValue i change =>
    have outside : r.nth? i = none := by simpa [accepts, value?] using refused
    exact modifyValue_of_outside outside change

/-- After any run of operations rules are an ordered map. Their entries are those that the run makes
of a bare list, whose symbols thus stay distinct; look-ups by symbol and by position agree; each
further operation follows its law, and one that is refused changes nothing. -/
theorem run_orderedMap (edits : List Edit) :
    let r := run edits
    let bare := edits.foldl Edit.onEntries []
    r.entries = bare ∧ (bare.map Prod.fst).Nodup ∧ r.Consistent ∧
    ∀ edit, r.Lawful (r.perform edit) edit ∧ (r.accepts edit = false → r.perform edit = r) := by
  intro r bare
  have entries : r.entries = bare := entries_run edits
  exact ⟨entries, entries ▸ r.distinct, r.consistent,
    fun edit => ⟨r.perform_lawful edit, perform_of_refused⟩⟩

/-- A repeated symbol, and a rule that has lost its name: another unnamed one is refused, and with
the first rule gone the unnamed one is first. -/
theorem renamed_run_orderedMap :
    let r := run [.ofPairs [('F', "FF"), ('X', "F"), ('F', "F+F")], .rename 1 ' ']
    r.entries = [('F', "F+F"), (' ', "F")] ∧ r.perform (.append ' ' "X") = r ∧
      (r.perform (.erase 'F')).entries = [(' ', "F")] := by
  intro r
  obtain ⟨bare, _, _, operations⟩ :=
    run_orderedMap [.ofPairs [('F', "FF"), ('X', "F"), ('F', "F+F")], .rename 1 ' ']
  have entries : r.entries = [('F', "F+F"), (' ', "F")] := by
    rw [bare]
    decide
  refine ⟨entries, (operations (.append ' ' "X")).2 (by decide), ?_⟩
  rw [(operations (.erase 'F')).1.2 0 (by decide), entries]
  rfl

end LSystem.Rules
