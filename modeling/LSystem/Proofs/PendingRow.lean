import LSystem.Proofs.Acceptance
import LSystem.Proofs.CursorPlacement
import Mathlib.Data.List.InsertIdx
import Mathlib.Data.List.Nodup

/-! The cursor near a pending rule. A rule whose symbol was taken away is pending where it stands, so
there may be rows below it. From such a row moving up gets the cursor nowhere: the pending rule is
dropped, and the rows below it move up with the cursor. Moving down from the pending rule leaves it
behind as if it had its symbol. Otherwise the one gets the cursor to a row above, and the other never
past the pending rule. -/

namespace LSystem

/-- A row of the fields. -/
inductive Row where
  | name
  | seed
  | rule (entry : Char × String)
deriving DecidableEq

namespace Fractal

def rows (f : Fractal) : List Row := .name :: .seed :: f.rules.entries.map .rule

/-- The nearest row above row `i` that the fractal `kept` still has. -/
def nearestAbove? (f kept : Fractal) (i : Nat) : Option Row :=
  ((f.rows.take i).filter (· ∈ kept.rows)).getLast?

/-- A rule above row `i` is pending. -/
def PendingAbove (f : Fractal) (i : Nat) : Prop :=
  ∃ p, f.rules.position? Rules.pendingSymbol = some p ∧ Cursor.firstRuleRow + p < i

theorem length_rows (f : Fractal) : f.rows.length = Cursor.lastRow f + 1 := by
  simp only [rows, List.length_cons, List.length_map, Cursor.lastRow, Cursor.seedRow, Rules.size]
  omega

theorem nodup_rows (f : Fractal) : f.rows.Nodup := by
  have rules : (f.rules.entries.map Row.rule).Nodup := by
    have entries : f.rules.entries.Pairwise fun a b => a.1 ≠ b.1 := List.pairwise_map.mp f.rules.distinct
    refine List.pairwise_map.mpr (entries.imp fun apart same => ?_)
    cases same
    exact apart rfl
  simpa [rows] using rules

theorem dropPending_content (f : Fractal) :
    f.dropPending.name = f.name ∧ f.dropPending.seed = f.seed ∧
      f.dropPending.rules = f.rules.committed := by
  unfold dropPending dropPending?
  split
  · exact ⟨rfl, rfl, rfl⟩
  · next settled =>
    have absent := mt Rules.mem_symbols_iff_contains.mp settled
    exact ⟨rfl, rfl, (Rules.erase_of_absent absent).symm⟩

theorem rows_dropPending_of_settled {f : Fractal}
    (settled : f.rules.position? Rules.pendingSymbol = none) : f.dropPending.rows = f.rows := by
  have same : f.rules.committed = f.rules :=
    Rules.erase_of_absent (Rules.position?_eq_none_iff.mp settled)
  rw [rows, f.dropPending_content.2.2, same, rows]

/-- Without the pending rule the rows below it move up by one. -/
theorem rows_dropPending_of_pending {f : Fractal} {p : Nat}
    (pending : f.rules.position? Rules.pendingSymbol = some p) :
    f.dropPending.rows = f.rows.eraseIdx (Cursor.firstRuleRow + p) := by
  obtain ⟨value, here⟩ := Rules.position?_eq_some_iff.mp pending
  have entries : f.rules.committed.entries = f.rules.entries.eraseIdx p := Rules.entries_erase here
  rw [rows, f.dropPending_content.2.2, entries, Cursor.firstRuleRow, Nat.add_comm 2 p, rows,
    List.eraseIdx_cons_succ, List.eraseIdx_cons_succ, List.eraseIdx_map]

theorem lastRow_dropPending (f : Fractal) :
    Cursor.lastRow f ≤ Cursor.lastRow f.dropPending + 1 := by
  have before := f.length_rows
  have after := f.dropPending.length_rows
  cases position : f.rules.position? Rules.pendingSymbol with
  | none =>
    rw [rows_dropPending_of_settled position] at after
    omega
  | some p =>
    have shorter := List.le_length_eraseIdx f.rows (Cursor.firstRuleRow + p)
    rw [← rows_dropPending_of_pending position] at shorter
    omega

theorem getElem?_rows_settled {f : Fractal} {i : Nat} (below : 1 ≤ i) (settled : ¬ f.PendingAbove i) :
    f.dropPending.rows[i - 1]? = f.rows[i - 1]? := by
  cases position : f.rules.position? Rules.pendingSymbol with
  | none => rw [rows_dropPending_of_settled position]
  | some p =>
    have later : i ≤ Cursor.firstRuleRow + p :=
      Nat.le_of_not_lt fun above => settled ⟨p, position, above⟩
    rw [rows_dropPending_of_pending position, List.getElem?_eraseIdx_of_lt (by omega)]

theorem getElem?_rows_pending {f : Fractal} {i : Nat} (above : f.PendingAbove i) :
    f.dropPending.rows[i - 1]? = f.rows[i]? := by
  obtain ⟨p, position, above⟩ := above
  rw [rows_dropPending_of_pending position, List.getElem?_eraseIdx_of_ge (by omega),
    Nat.sub_add_cancel (by omega)]

theorem nearestAbove?_succ {f kept : Fractal} {i : Nat} {row : Row} (here : f.rows[i]? = some row)
    (survives : row ∈ kept.rows) : f.nearestAbove? kept (i + 1) = some row := by
  rw [nearestAbove?, List.take_add_one, here, List.filter_append]
  simp [survives]

/-- The name is above all other rows, and it always survives. -/
theorem exists_nearestAbove (f kept : Fractal) {i : Nat} (below : 1 ≤ i) :
    ∃ row, f.nearestAbove? kept i = some row := by
  obtain ⟨i, rfl⟩ := Nat.exists_eq_add_of_le' below
  have survives : Row.name ∈ kept.rows := List.mem_cons_self
  have mem : Row.name ∈ (f.rows.take (i + 1)).filter (· ∈ kept.rows) :=
    List.mem_filter.mpr ⟨List.mem_cons_self, decide_eq_true survives⟩
  exact Option.isSome_iff_exists.mp (List.getLast?_isSome.mpr (List.ne_nil_of_mem mem))

theorem nearestAbove?_apart {f kept : Fractal} {i : Nat} {row : Row}
    (nearest : f.nearestAbove? kept i = some row) : f.rows[i]? ≠ some row := by
  intro here
  have mem := (List.mem_filter.mp (List.mem_of_getLast? nearest)).1
  obtain ⟨j, shorter, there⟩ := List.mem_take_iff_getElem.mp mem
  have inside := (List.getElem?_eq_some_iff.mp here).1
  have found : f.rows[j]? = some row := List.getElem?_eq_some_iff.mpr ⟨by omega, there⟩
  have equal := (List.getElem?_inj inside f.nodup_rows).mp (here.trans found.symm)
  omega

end Fractal

namespace Cursor

/-- The row under the cursor. -/
def under? (c : Cursor) (f : Fractal) : Option Row := f.rows[c.row]?

theorem row_moveUp {c : Cursor} {f : Fractal} (inside : c.row ≤ lastRow f) :
    (c.moveUp f).1.row = c.row - 1 := by
  have last := f.lastRow_dropPending
  exact Nat.min_eq_left (by omega)

theorem moveUp_settled {c : Cursor} {f : Fractal} (below : 1 ≤ c.row) (inside : c.row ≤ lastRow f)
    (settled : ¬ f.PendingAbove c.row) :
    (c.moveUp f).1.under? f.dropPending = f.nearestAbove? f.dropPending c.row := by
  have length := f.length_rows
  obtain ⟨row, above⟩ : ∃ row, f.rows[c.row - 1]? = some row :=
    ⟨_, List.getElem?_eq_getElem (by omega)⟩
  have kept := (Fractal.getElem?_rows_settled below settled).trans above
  have nearest := Fractal.nearestAbove?_succ above (List.mem_of_getElem? kept)
  rw [Nat.sub_add_cancel below] at nearest
  rw [under?, row_moveUp inside, kept, nearest]

theorem moveUp_pending {c : Cursor} {f : Fractal} (inside : c.row ≤ lastRow f)
    (above : f.PendingAbove c.row) : (c.moveUp f).1.under? f.dropPending = c.under? f := by
  rw [under?, row_moveUp inside, Fractal.getElem?_rows_pending above, under?]

/-- Moving up drops the pending rule and keeps all else. The cursor gets to the nearest row above it
that is left, unless the pending rule is above it: then it stays on the row where it was. -/
theorem moveUp_climbs_iff (c : Cursor) (f : Fractal) (below : 1 ≤ c.row)
    (inside : c.row ≤ lastRow f) :
    let moved := (c.moveUp f).1
    let kept := (c.moveUp f).2
    kept.name = f.name ∧ kept.seed = f.seed ∧
    kept.rules.entries = f.rules.entries.filter (·.1 ≠ Rules.pendingSymbol) ∧
    kept.rules.hasPending = false ∧
    (∃ row, f.nearestAbove? kept c.row = some row) ∧
    (moved.under? kept = f.nearestAbove? kept c.row ↔ ¬ f.PendingAbove c.row) ∧
    (moved.under? kept = c.under? f ↔ f.PendingAbove c.row) := by
  intro moved kept
  obtain ⟨nearest, found⟩ := f.exists_nearestAbove kept below
  -- the two outcomes exclude each other, so it is enough to see which one each case has
  have apart : c.under? f ≠ f.nearestAbove? kept c.row :=
    found ▸ Fractal.nearestAbove?_apart found
  obtain ⟨name, seed, rules⟩ := f.dropPending_content
  refine ⟨name, seed, congrArg Rules.entries rules, f.hasPending_dropPending, ⟨nearest, found⟩,
    ?_, ?_⟩
  · constructor
    · intro climbs above
      exact apart ((moveUp_pending inside above).symm.trans climbs)
    · exact moveUp_settled below inside
  · constructor
    · intro stays
      by_contra settled
      exact apart (stays.symm.trans (moveUp_settled below inside settled))
    · exact moveUp_pending inside

/-- The arrowhead curve after its first symbol was taken away: from the second rule the cursor moves up
to the second rule, and not to the seed. -/
theorem moveUp_stays :
    let f := Fractal.new "Tri" "A" 60 (.ofPairs [(Rules.pendingSymbol, "B-A-B"), ('B', "A+B+A")])
    let c : Cursor := { row := 3 }
    let moved := (c.moveUp f).1
    let kept := (c.moveUp f).2
    1 ≤ c.row ∧ c.row ≤ lastRow f ∧ c.under? f = some (.rule ('B', "A+B+A")) ∧
      moved.under? kept = some (.rule ('B', "A+B+A")) ∧
      f.nearestAbove? kept c.row = some .seed := by
  decide

/-- From the rule that has lost its symbol, and from the rows above it, the cursor moves up. -/
theorem moveUp_climbs_to_seed :
    let f := Fractal.new "Tri" "A" 60 (.ofPairs [(Rules.pendingSymbol, "B-A-B"), ('B', "A+B+A")])
    let c : Cursor := { row := 2, onSymbol := true }
    1 ≤ c.row ∧ c.row ≤ lastRow f ∧ (c.moveUp f).1.under? (c.moveUp f).2 = some .seed := by
  intro f c
  have below : 1 ≤ c.row := by decide
  have inside : c.row ≤ lastRow f := by decide
  have settled : ¬ f.PendingAbove c.row := by
    rintro ⟨p, -, above⟩
    have short : 2 + p < 2 := above
    omega
  have climbs := (moveUp_climbs_iff c f below inside).2.2.2.2.2.1.mpr settled
  exact ⟨below, inside, climbs.trans (by decide)⟩

theorem openRule?_eq_none {f : Fractal} {p : Nat}
    (pending : f.rules.position? Rules.pendingSymbol = some p) : f.openRule? = none := by
  rw [Fractal.openRule?, Rules.append?_eq_none_iff.mpr (Rules.mem_symbols_of_position? pending)]
  rfl

theorem entries_openRule? {f opened : Fractal} (found : f.openRule? = some opened) :
    opened.rules.entries = f.rules.entries ++ [(Rules.pendingSymbol, "")] := by
  obtain ⟨rules, appended, rfl⟩ := Option.map_eq_some_iff.mp found
  exact Rules.entries_append? appended

theorem moveDown_pending {c : Cursor} {f : Fractal} {p : Nat}
    (pending : f.rules.position? Rules.pendingSymbol = some p)
    (above : c.row ≤ firstRuleRow + p) :
    (c.moveDown f).2 = f ∧ ((c.moveDown f).1.row ≤ firstRuleRow + p ↔
      c.row < firstRuleRow + p ∨ firstRuleRow + p = lastRow f) := by
  obtain ⟨value, here⟩ := Rules.position?_eq_some_iff.mp pending
  have inside : p < f.rules.size := (List.getElem?_eq_some_iff.mp here).1
  have last : firstRuleRow + p ≤ lastRow f := by
    simp only [firstRuleRow, lastRow, seedRow]
    omega
  obtain ⟨further, moved⟩ | ⟨opened, _, found, _⟩ | ⟨bottom, _, moved⟩ := c.moveDown_cases f
  · rw [moved]
    dsimp only
    exact ⟨rfl, by omega⟩
  · rw [openRule?_eq_none pending] at found
    contradiction
  · rw [moved]
    dsimp only
    exact ⟨rfl, by omega⟩

theorem moveDown_opens {c : Cursor} {f : Fractal} (settled : f.rules.hasPending = false)
    (bottom : c.row = lastRow f) :
    (c.moveDown f).2.rules.entries = f.rules.entries ++ [(Rules.pendingSymbol, "")] ∧
    (c.moveDown f).1.field? (c.moveDown f).2 = some (.symbol f.rules.size) := by
  obtain ⟨further, _⟩ | ⟨opened, _, found, moved⟩ | ⟨_, refused, _⟩ := c.moveDown_cases f
  · omega
  · rw [moved]
    have size := Fractal.size_openRule? found
    have row : lastRow f + 1 = f.rules.size + 2 := by
      simp only [lastRow, seedRow]
      omega
    refine ⟨entries_openRule? found, ?_⟩
    simp only [field?, row, size]
    rw [if_neg (by omega), if_pos trivial]
  · have taken := Rules.append?_eq_none_iff.mp (Option.map_eq_none_iff.mp refused)
    rw [Rules.mem_symbols_iff_contains] at taken
    exact absurd (settled.symm.trans taken) Bool.false_ne_true

end Cursor

namespace Session

theorem apply_cursorDown {s : Session} (fresh : s.Fresh) :
    (∃ rebuilt, (s.apply .cursorDown).2 = .ok rebuilt) ∧
    (s.apply .cursorDown).1.scene.current =
      (s.scene.view.cursor.moveDown s.scene.current).2 ∧
    (s.apply .cursorDown).1.scene.view.cursor =
      (s.scene.view.cursor.moveDown s.scene.current).1 := by
  obtain ⟨rebuilt, accepted⟩ := apply_accepted (i := .cursorDown) fresh rfl
  have scene := scene_of_accepted accepted
  refine ⟨⟨rebuilt, accepted⟩, ?_, ?_⟩
  · rw [scene]
    exact s.scene.current_edit Cursor.moveDown
  · rw [scene]
    rfl

/-- Moving down is accepted in every session. From the pending rule's row, or from a row above it, it
opens no second one, and the cursor gets below that row only if it was on it and there is a row
below. From the last row, with no rule pending, it opens one and the cursor is on its symbol. -/
theorem run_moveDown_passes_iff (gallery : Gallery) (settings : Settings) (selected : Nat)
    (s : Session) (started : start gallery settings selected = .ok s) (intents : List Intent) :
    let now := s.run intents
    let f := now.scene.current
    let row := now.scene.view.cursor.row
    let after := (now.apply .cursorDown).1
    (∃ rebuilt, (now.apply .cursorDown).2 = .ok rebuilt) ∧
    (∀ p, f.rules.position? Rules.pendingSymbol = some p → row ≤ Cursor.firstRuleRow + p →
      after.scene.current = f ∧ f.rules.symbols.count Rules.pendingSymbol = 1 ∧
      (after.scene.view.cursor.row ≤ Cursor.firstRuleRow + p ↔
        row < Cursor.firstRuleRow + p ∨ Cursor.firstRuleRow + p = Cursor.lastRow f)) ∧
    (f.rules.hasPending = false → row = Cursor.lastRow f →
      after.scene.current.rules.entries = f.rules.entries ++ [(Rules.pendingSymbol, "")] ∧
      after.scene.view.cursor.field? after.scene.current = some (.symbol f.rules.size)) := by
  intro now f row after
  have fresh : now.Fresh := run_fresh started intents
  obtain ⟨accepted, current, cursor⟩ := apply_cursorDown fresh
  refine ⟨accepted, fun p pending above => ?_, fun settled bottom => ?_⟩
  · obtain ⟨same, passes⟩ := Cursor.moveDown_pending pending above
    have once :=
      List.count_eq_one_of_mem f.rules.distinct (Rules.mem_symbols_of_position? pending)
    exact ⟨current.trans same, once, by rw [cursor]; exact passes⟩
  · rw [current, cursor]
    exact Cursor.moveDown_opens settled bottom

/-- The first symbol of the arrowhead curve is taken away: its rule is pending, the cursor is on it,
and moves down to the second rule. -/
theorem moveDown_passes_pending :
    ∃ s, start .seeded { iterations := 0 } 2 = .ok s ∧
      let now := s.run [.enterField 2, .editSymbol, .backspace]
      now.scene.current.rules.position? Rules.pendingSymbol = some 0 ∧
      now.scene.view.cursor.row = Cursor.firstRuleRow ∧
      (now.apply .cursorDown).1.scene.view.cursor.row = Cursor.firstRuleRow + 1 := by
  let s : Session := ⟨{ iterations := 0 }, .initial .seeded { iterations := 0 } 2, ⟨⟨2, 0, 0⟩, "A"⟩⟩
  exact ⟨s, rfl, by decide +kernel⟩

/-- A rule opened below the second one of the arrowhead curve is in the last row, and the cursor stays
on it. -/
theorem arrowhead_moveDown_stays :
    let intents := [.enterField 3, .cursorDown]
    ∃ s, start .seeded { iterations := 0 } 2 = .ok s ∧
      (s.run intents).scene.current.rules.position? Rules.pendingSymbol = some 2 ∧
      (s.run intents).scene.view.cursor.row = Cursor.firstRuleRow + 2 ∧
      ((s.run intents).apply .cursorDown).1.scene.view.cursor.row ≤ Cursor.firstRuleRow + 2 := by
  intro intents
  let s : Session := ⟨{ iterations := 0 }, .initial .seeded { iterations := 0 } 2, ⟨⟨2, 0, 0⟩, "A"⟩⟩
  obtain ⟨_, passes, _⟩ := run_moveDown_passes_iff .seeded { iterations := 0 } 2 s rfl intents
  have pending : (s.run intents).scene.current.rules.position? Rules.pendingSymbol = some 2 := by
    decide +kernel
  have row : (s.run intents).scene.view.cursor.row = Cursor.firstRuleRow + 2 := by decide +kernel
  have last : Cursor.firstRuleRow + 2 = Cursor.lastRow (s.run intents).scene.current := by
    decide +kernel
  exact ⟨s, rfl, pending, row, (passes 2 pending (Nat.le_of_eq row)).2.2.mpr (.inr last)⟩

end Session

end LSystem
