import LSystem.Proofs.CachedGeneration

/-! Where the cursor and the pending rules are in a session: the cursor is on a row of the selected
fractal, and no other fractal has a pending rule. Leaving a fractal drops its pending rule, which
moves the rows behind it up, and a refused intent puts everything back; so this holds after every
run. -/

namespace LSystem

namespace Fractal

theorem hasPending_dropPending (f : Fractal) : f.dropPending.rules.hasPending = false := by
  unfold dropPending dropPending?
  split
  · exact f.rules.hasPending_committed
  · next absent => exact Bool.eq_false_iff.mpr absent

theorem size_openRule? {f next : Fractal} (opened : f.openRule? = some next) :
    next.rules.size = f.rules.size + 1 := by
  obtain ⟨rules, appended, rfl⟩ := Option.map_eq_some_iff.mp opened
  exact Rules.size_append? appended

theorem size_renameRule? {f next : Fractal} {i : Nat} {symbol : Char}
    (renamed : f.renameRule? i symbol = some next) : next.rules.size = f.rules.size := by
  obtain ⟨rules, given, rfl⟩ := Option.map_eq_some_iff.mp renamed
  split
  · rfl
  · exact Rules.size_rename? given

theorem size_pushValue? {f next : Fractal} {i : Nat} {ch : Char}
    (pushed : f.pushValue? i ch = some next) : next.rules.size = f.rules.size := by
  obtain ⟨value, _, rfl⟩ := Option.map_eq_some_iff.mp pushed
  exact f.rules.size_modifyValue i _

theorem size_popValue? {f next : Fractal} {i : Nat} (popped : f.popValue? i = some next) :
    next.rules.size = f.rules.size := by
  obtain ⟨shorter, _, rfl⟩ := Option.map_eq_some_iff.mp popped
  exact f.rules.size_modifyValue i _

theorem size_popName? {f next : Fractal} (popped : f.popName? = some next) :
    next.rules.size = f.rules.size := by
  obtain ⟨name, _, rfl⟩ := Option.map_eq_some_iff.mp popped
  rfl

theorem size_popSeed? {f next : Fractal} (popped : f.popSeed? = some next) :
    next.rules.size = f.rules.size := by
  obtain ⟨seed, _, rfl⟩ := Option.map_eq_some_iff.mp popped
  rfl

end Fractal

def Field.row : Field → Nat
  | .name => Cursor.nameRow
  | .seed => Cursor.seedRow
  | .symbol rule => Cursor.firstRuleRow + rule
  | .value rule => Cursor.firstRuleRow + rule

namespace Cursor

/-- The cursor is on a row that the fractal has. -/
def Within (c : Cursor) (f : Fractal) : Prop := c.row ≤ lastRow f

theorem Within.of_size {c moved : Cursor} {f next : Fractal} (within : c.Within f)
    (row : moved.row = c.row) (size : next.rules.size = f.rules.size) : moved.Within next := by
  unfold Within lastRow at *
  rw [row, size]
  exact within

theorem moveDown_within (c : Cursor) (f : Fractal) :
    (c.moveDown f).1.Within (c.moveDown f).2 := by
  obtain ⟨above, moved⟩ | ⟨opened, _, found, moved⟩ | ⟨_, _, moved⟩ := c.moveDown_cases f
  · rw [moved]
    exact above
  · have size := Fractal.size_openRule? found
    simp only [moved, Within, lastRow, size]
    omega
  · rw [moved]
    exact Nat.le_refl _

theorem moveUp_within (c : Cursor) (f : Fractal) : (c.moveUp f).1.Within (c.moveUp f).2 :=
  Nat.min_le_right _ _

theorem enter_within (c : Cursor) (f : Fractal) (row : Nat) : (c.enter f row).Within f :=
  Nat.min_le_right _ _

theorem type_within {c : Cursor} {f : Fractal} {ch : Char} {moved : Cursor × Fractal}
    (within : c.Within f) (typed : c.type? f ch = some moved) : moved.1.Within moved.2 := by
  obtain ⟨_, rfl⟩ | ⟨_, rfl⟩ | ⟨_, _, _, pushed, rfl⟩ | ⟨_, _, _, _, renamed, rfl⟩ :=
    type_cases typed
  · exact within
  · exact within
  · exact within.of_size rfl (Fractal.size_pushValue? pushed)
  · exact within.of_size rfl (Fractal.size_renameRule? renamed)

theorem erase_within {c : Cursor} {f : Fractal} {moved : Cursor × Fractal}
    (within : c.Within f) (erased : c.erase? f = some moved) : moved.1.Within moved.2 := by
  obtain ⟨_, _, popped, rfl⟩ | ⟨_, _, popped, rfl⟩ | ⟨_, _, _, popped, rfl⟩ |
    ⟨_, _, _, renamed, rfl⟩ := erase_cases erased
  · exact within.of_size rfl (Fractal.size_popName? popped)
  · exact within.of_size rfl (Fractal.size_popSeed? popped)
  · exact within.of_size rfl (Fractal.size_popValue? popped)
  · exact within.of_size rfl (Fractal.size_renameRule? renamed)

theorem Within.field {c : Cursor} {f : Fractal} (within : c.Within f) :
    ∃ field, c.field? f = some field ∧ field.row = c.row := by
  obtain ⟨row, onSymbol⟩ := c
  match row with
  | 0 => exact ⟨.name, rfl, rfl⟩
  | 1 => exact ⟨.seed, rfl, rfl⟩
  | rule + 2 =>
    have inside : ¬ f.rules.size ≤ rule := by
      simp only [Within, lastRow, seedRow] at within
      omega
    refine ⟨if onSymbol then .symbol rule else .value rule, if_neg inside, ?_⟩
    cases onSymbol with
    | true => exact Nat.add_comm 2 rule
    | false => exact Nat.add_comm 2 rule

theorem length_fieldLines (c : Cursor) (f : Fractal) :
    (c.fieldLines f).length = lastRow f + 1 := by
  simp only [fieldLines, List.length_cons, List.length_mapIdx, lastRow, seedRow, Rules.size]
  omega

theorem fieldLines_row (c : Cursor) (f : Fractal) (row : Nat) (line : String)
    (shown : (c.fieldLines f)[row]? = some line) : ∃ text, line = c.mark row ++ text := by
  match row with
  | 0 =>
    cases shown
    exact ⟨"Name: " ++ f.name, String.append_assoc ..⟩
  | 1 =>
    cases shown
    exact ⟨"Axiom: " ++ f.seed, String.append_assoc ..⟩
  | rule + 2 =>
    have entry : (f.rules.entries.mapIdx fun i e =>
        c.mark (firstRuleRow + i) ++ e.1.toString ++ " -> " ++ e.2)[rule]? = some line := shown
    rw [List.getElem?_mapIdx] at entry
    obtain ⟨e, _, rfl⟩ := Option.map_eq_some_iff.mp entry
    refine ⟨e.1.toString ++ (" -> " ++ e.2), ?_⟩
    rw [firstRuleRow, Nat.add_comm 2 rule]
    simp only [String.append_assoc]

/-- The row of a list of lines has the cursor's mark in front. -/
def Marked (lines : List String) (row : Nat) : Prop :=
  ∃ line, lines[row]? = some line ∧ line.toList.head? = some '>'

theorem marked_fieldLines (c : Cursor) (f : Fractal) (within : c.Within f) (row : Nat) :
    Marked (c.fieldLines f) row ↔ row = c.row := by
  constructor
  · rintro ⟨line, shown, front⟩
    obtain ⟨text, rfl⟩ := c.fieldLines_row f row line shown
    by_cases here : c.row = row
    · exact here.symm
    · simp [mark, here] at front
  · rintro rfl
    have inside : c.row < (c.fieldLines f).length := by
      rw [length_fieldLines]
      exact Nat.lt_succ_of_le within
    have shown := List.getElem?_eq_getElem inside
    obtain ⟨text, line⟩ := c.fieldLines_row f c.row _ shown
    refine ⟨_, shown, ?_⟩
    rw [line]
    simp [mark]

theorem fieldLines_of_preview (c : Cursor) (f : Fractal) :
    (c.preview f).drop (previewRounds + 1) = c.fieldLines f := by
  rw [preview, List.drop_left']
  rw [List.length_map, List.length_range]

end Cursor

namespace Scene

/-- The cursor is on a row of the selected fractal. -/
def Within (s : Scene) : Prop := s.view.cursor.Within s.current

/-- Only the selected fractal can have a pending rule. -/
def Settled (s : Scene) : Prop :=
  ∀ i f, s.gallery.get? i = some f → i ≠ s.view.selected → f.rules.hasPending = false

theorem within_withView {s : Scene} (within : s.Within) (change : View → View)
    (keeps : (change s.view).selected = s.view.selected)
    (cursor : (change s.view).cursor = s.view.cursor) : (s.withView change keeps).Within := by
  rw [Within, s.current_withView change keeps]
  exact cursor ▸ within

theorem within_edit (s : Scene) (change : Cursor → Fractal → Cursor × Fractal)
    (within : (change s.view.cursor s.current).1.Within (change s.view.cursor s.current).2) :
    (s.edit change).Within := by
  rw [Within, s.current_edit change]
  exact within

theorem within_tryEdit {s : Scene} (within : s.Within)
    (change : Cursor → Fractal → Option (Cursor × Fractal))
    (moves : ∀ moved, change s.view.cursor s.current = some moved → moved.1.Within moved.2) :
    (s.tryEdit change).Within := by
  unfold Scene.tryEdit
  split
  · next moved found => exact s.within_edit _ (moves moved found)
  · exact within

theorem act_within (s : Scene) (within : s.Within) (i : Intent) : (s.act i).Within := by
  unfold act
  cases i with
  | nextFractal | previousFractal | newFractal => exact Nat.zero_le _
  | append ch =>
    refine within_tryEdit within _ ?_
    exact fun _ => Cursor.type_within within
  | backspace =>
    refine within_tryEdit within _ ?_
    exact fun _ => Cursor.erase_within within
  | cursorUp => exact s.within_edit _ (Cursor.moveUp_within _ _)
  | cursorDown => exact s.within_edit _ (Cursor.moveDown_within _ _)
  | enterField row => exact s.within_edit _ (Cursor.enter_within _ _ row)
  | toggleHalf | editSymbol | editValue => exact s.within_edit _ within
  | fewerIterations =>
    refine within_withView within _ _ ?_
    unfold View.fewerIterations
    split <;> rfl
  | _ => exact within_withView within _ _ rfl

theorem settled_withView {s : Scene} (settled : s.Settled) (change : View → View)
    (keeps : (change s.view).selected = s.view.selected) : (s.withView change keeps).Settled :=
  fun i f found apart => settled i f found fun same => apart (same.trans keeps.symm)

theorem settled_edit {s : Scene} (settled : s.Settled)
    (change : Cursor → Fractal → Cursor × Fractal) : (s.edit change).Settled := by
  intro i f found apart
  have others : s.gallery.get? i = some f := by
    rw [← s.gallery.get?_modify (Ne.symm apart)]
    exact found
  exact settled i f others apart

theorem settled_tryEdit {s : Scene} (settled : s.Settled)
    (change : Cursor → Fractal → Option (Cursor × Fractal)) : (s.tryEdit change).Settled := by
  unfold Scene.tryEdit
  split
  · exact settled_edit settled _
  · exact settled

theorem select_settled (s : Scene) (i : Nat) (inside : i < s.gallery.size)
    (settled : s.Settled) : (s.select i inside).Settled := by
  intro j f found apart
  by_cases left : j = s.view.selected
  · subst left
    -- The fractal that is left may have had a pending rule, which is dropped.
    obtain ⟨old, rfl⟩ := Gallery.get?_modify_self found
    exact old.hasPending_dropPending
  · have others : s.gallery.get? j = some f := by
      rw [← s.gallery.get?_modify (Ne.symm left)]
      exact found
    exact settled j f others left

theorem addCopy_settled (s : Scene) (settled : s.Settled) : s.addCopy.Settled := by
  refine select_settled _ _ _ fun j f found apart => ?_
  obtain old | rfl := Gallery.get?_push found
  · exact settled j f old apart
  · exact s.current.rules.hasPending_committed

theorem act_settled (s : Scene) (settled : s.Settled) (i : Intent) : (s.act i).Settled := by
  unfold act
  cases i with
  | nextFractal => exact s.select_settled _ _ settled
  | previousFractal => exact s.select_settled _ _ settled
  | newFractal => exact s.addCopy_settled settled
  | append | backspace => exact settled_tryEdit settled _
  | cursorUp | cursorDown | enterField | toggleHalf | editSymbol | editValue =>
    exact settled_edit settled _
  | _ => exact settled_withView settled _ _

/-- Where the cursor and the pending rules can be. -/
structure Placed (s : Scene) : Prop where
  within : s.Within
  settled : s.Settled

theorem act_placed (s : Scene) (placed : s.Placed) (i : Intent) : (s.act i).Placed :=
  ⟨s.act_within placed.within i, s.act_settled placed.settled i⟩

theorem initial_placed (gallery : Gallery) (settings : Settings) (selected : Nat)
    (settled : ∀ f ∈ gallery.fractals, f.rules.hasPending = false) :
    (initial gallery settings selected).Placed where
  within := Nat.zero_le _
  settled := fun _ f found _ => settled f (List.mem_of_getElem? found)

end Scene

namespace Session

theorem apply_preserves {P : Scene → Prop} (step : ∀ s, P s → ∀ i, P (s.act i)) (s : Session)
    (i : Intent) (base : P s.scene) : P (s.apply i).1.scene := by
  obtain acted | same := s.apply_scene i
  · rw [acted]
    exact step s.scene base i
  · rw [same]
    exact base

theorem apply_placed (s : Session) (i : Intent) (placed : s.scene.Placed) :
    (s.apply i).1.scene.Placed := apply_preserves Scene.act_placed s i placed

/-- Whatever is done in a session whose fractals had no pending rule at first, the cursor is on a
row of the selected fractal, the preview marks that row and no other, and at most the selected
fractal has a pending rule. -/
theorem run_keeps_placement (gallery : Gallery) (settings : Settings) (selected : Nat)
    (settled : ∀ f ∈ gallery.fractals, f.rules.hasPending = false) (s : Session)
    (started : start gallery settings selected = .ok s) (intents : List Intent) :
    let now := (s.run intents).scene
    now.view.selected < now.gallery.size ∧
    (∀ f ∈ now.gallery.fractals,
      f.rules.symbols.Nodup ∧ f.rules.symbols.count Rules.pendingSymbol ≤ 1) ∧
    (∀ i f, now.gallery.get? i = some f → i ≠ now.view.selected →
      f.rules.hasPending = false) ∧
    now.view.cursor.row ≤ 1 + now.current.rules.size ∧
    (∃ field, now.view.cursor.field? now.current = some field ∧
      field.row = now.view.cursor.row) ∧
    ∀ row, Cursor.Marked ((s.run intents).preview.drop (Cursor.previewRounds + 1)) row ↔
      row = now.view.cursor.row := by
  intro now
  have base : s.scene.Placed := by
    have same : s.scene = .initial gallery settings selected :=
      congrArg Uncached.scene (start_fresh started).1
    rw [same]
    exact Scene.initial_placed gallery settings selected settled
  have placed : now.Placed := run_preserves apply_placed base intents
  refine ⟨now.selected_lt, ?_, placed.settled, placed.within, placed.within.field, ?_⟩
  · intro f _
    exact ⟨f.rules.distinct, List.nodup_iff_count.mp f.rules.distinct _⟩
  · intro row
    have lines : (s.run intents).preview.drop (Cursor.previewRounds + 1) =
        now.view.cursor.fieldLines now.current := Cursor.fieldLines_of_preview _ _
    rw [lines]
    exact now.view.cursor.marked_fieldLines now.current placed.within row

/-- From the dragon curve down to a pending rule, which is left behind, and on to a symbol of the
next fractal that is taken away. -/
theorem dragon_keeps_placement :
    let intents := [.cursorDown, .cursorDown, .cursorDown, .cursorDown, .nextFractal,
      .cursorDown, .cursorDown, .editSymbol, .backspace, .cursorDown, .cursorDown]
    ∃ s, start .seeded { iterations := 0 } 1 = .ok s ∧
      ∃ field, (s.run intents).scene.view.cursor.field? (s.run intents).scene.current =
        some field ∧ field.row = (s.run intents).scene.view.cursor.row := by
  intro intents
  have settled : ∀ f ∈ Gallery.seeded.fractals, f.rules.hasPending = false := by decide
  obtain ⟨_, _, _, _, field, _⟩ :=
    run_keeps_placement .seeded { iterations := 0 } 1 settled _ rfl intents
  exact ⟨_, rfl, field⟩

end Session

end LSystem
