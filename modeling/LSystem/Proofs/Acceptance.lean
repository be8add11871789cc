import LSystem.Viewer
import LSystem.Proofs.CachedGeneration

/-! Intents that are never refused. What is on display has been built, with all generations before
it; so nothing can be refused that asks for no further generation and leaves the seed and the
committed rules as they are. Opening, dropping and copying around a pending rule are such changes. -/

namespace LSystem

namespace Fractal

/-- The fractals have the same generations. -/
structure Alike (f next : Fractal) : Prop where
  seed : next.seed = f.seed
  rules : next.rules.committed = f.rules.committed

theorem Alike.refl (f : Fractal) : f.Alike f := ⟨rfl, rfl⟩

theorem alike_popName {f next : Fractal} (popped : f.popName? = some next) : f.Alike next := by
  obtain ⟨name, _, rfl⟩ := Option.map_eq_some_iff.mp popped
  exact ⟨rfl, rfl⟩

theorem alike_openRule {f next : Fractal} (opened : f.openRule? = some next) : f.Alike next := by
  obtain ⟨rules, appended, rfl⟩ := Option.map_eq_some_iff.mp opened
  exact ⟨rfl, Rules.committed_append_pending appended⟩

theorem alike_dropPending (f : Fractal) : f.Alike f.dropPending := by
  unfold dropPending dropPending?
  split
  · exact ⟨rfl, f.rules.committed_committed⟩
  · exact .refl f

theorem alike_copyAs (f : Fractal) (name : String) : f.Alike (f.copyAs name) :=
  ⟨rfl, f.rules.committed_committed⟩

end Fractal

namespace Cursor

theorem moveDown_alike (c : Cursor) (f : Fractal) : f.Alike (c.moveDown f).2 := by
  obtain ⟨_, moved⟩ | ⟨opened, _, found, moved⟩ | ⟨_, _, moved⟩ := c.moveDown_cases f
  · rw [moved]
    exact .refl f
  · rw [moved]
    exact Fractal.alike_openRule found
  · rw [moved]
    exact .refl f

theorem field_on_name {c : Cursor} (onName : c.row = nameRow) (f : Fractal) :
    c.field? f = some .name := by
  unfold field?
  rw [onName]
  rfl

theorem type_alike {c : Cursor} {f : Fractal} {ch : Char} {moved : Cursor × Fractal}
    (onName : c.row = nameRow) (typed : c.type? f ch = some moved) : f.Alike moved.2 := by
  have name := field_on_name onName f
  obtain ⟨_, rfl⟩ | ⟨on, _⟩ | ⟨_, _, on, _⟩ | ⟨_, _, on, _⟩ := type_cases typed
  · exact ⟨rfl, rfl⟩
  · cases name.symm.trans on
  · cases name.symm.trans on
  · cases name.symm.trans on

theorem erase_alike {c : Cursor} {f : Fractal} {moved : Cursor × Fractal}
    (onName : c.row = nameRow) (erased : c.erase? f = some moved) : f.Alike moved.2 := by
  have name := field_on_name onName f
  obtain ⟨_, _, popped, rfl⟩ | ⟨_, on, _⟩ | ⟨_, _, on, _⟩ | ⟨_, _, on, _⟩ := erase_cases erased
  · exact Fractal.alike_popName popped
  · cases name.symm.trans on
  · cases name.symm.trans on
  · cases name.symm.trans on

end Cursor

/-- The intents that are never refused while the cursor is at `c`. -/
def Intent.isSafe (c : Cursor) : Intent → Bool
  | .turnLeft | .turnRight | .growLength | .shrinkLength | .fewerIterations
  | .panUp | .panDown | .panLeft | .panRight | .headingClockwise | .headingCounterclockwise
  | .enterField _ | .toggleHalf | .editSymbol | .editValue | .cursorUp | .cursorDown
  | .newFractal => true
  | .append _ | .backspace => c.row = Cursor.nameRow
  | .nextFractal | .previousFractal | .moreIterations => false

namespace Scene

/-- The second scene displays a generation of the fractal that the first one displays, and no
later one. -/
structure NoLarger (s next : Scene) : Prop where
  alike : s.current.Alike next.current
  iterations : next.view.iterations ≤ s.view.iterations

theorem withView_noLarger (s : Scene) (change : View → View)
    (keeps : (change s.view).selected = s.view.selected)
    (fewer : (change s.view).iterations ≤ s.view.iterations) :
    s.NoLarger (s.withView change keeps) where
  alike := by
    rw [s.current_withView change keeps]
    exact .refl _
  iterations := fewer

theorem edit_noLarger (s : Scene) (change : Cursor → Fractal → Cursor × Fractal)
    (alike : s.current.Alike (change s.view.cursor s.current).2) : s.NoLarger (s.edit change) where
  alike := by
    rw [s.current_edit change]
    exact alike
  iterations := Nat.le_refl _

theorem tryEdit_noLarger (s : Scene) (change : Cursor → Fractal → Option (Cursor × Fractal))
    (alike : ∀ moved, change s.view.cursor s.current = some moved → s.current.Alike moved.2) :
    s.NoLarger (s.tryEdit change) := by
  unfold tryEdit
  split
  · next moved found => exact s.edit_noLarger _ (alike moved found)
  · exact ⟨.refl _, Nat.le_refl _⟩

theorem current_addCopy (s : Scene) : s.addCopy.current = s.current.copyAs newName := by
  -- The pending rule is dropped from the selected fractal, which is not the copy.
  have apart : s.view.selected ≠ s.gallery.size := Nat.ne_of_lt s.selected_lt
  have last : (s.gallery.push (s.current.copyAs newName)).get? s.gallery.size =
      some (s.current.copyAs newName) := List.getElem?_concat_length
  have shown := s.addCopy.get?_selected
  have kept := (s.gallery.push (s.current.copyAs newName)).get?_modify apart Fractal.dropPending
  exact Option.some.inj (shown.symm.trans (kept.trans last))

theorem addCopy_noLarger (s : Scene) : s.NoLarger s.addCopy where
  alike := by
    rw [current_addCopy]
    exact s.current.alike_copyAs newName
  iterations := Nat.le_refl _

theorem act_noLarger (s : Scene) (i : Intent) (safe : i.isSafe s.view.cursor) :
    s.NoLarger (s.act i) := by
  unfold act
  cases i with
  | nextFractal | previousFractal | moreIterations => contradiction
  | newFractal => exact s.addCopy_noLarger
  | append ch =>
    refine s.tryEdit_noLarger _ ?_
    exact fun _ => Cursor.type_alike (of_decide_eq_true safe)
  | backspace =>
    refine s.tryEdit_noLarger _ ?_
    exact fun _ => Cursor.erase_alike (of_decide_eq_true safe)
  | cursorUp =>
    refine s.edit_noLarger _ ?_
    exact s.current.alike_dropPending
  | cursorDown =>
    refine s.edit_noLarger _ ?_
    exact Cursor.moveDown_alike _ _
  | enterField _ | toggleHalf | editSymbol | editValue =>
    refine s.edit_noLarger _ ?_
    exact .refl _
  | fewerIterations =>
    refine s.withView_noLarger _ _ ?_
    unfold View.fewerIterations
    split
    · exact Nat.le_refl _
    · exact Nat.sub_le _ 1
  | _ =>
    refine s.withView_noLarger _ _ ?_
    exact Nat.le_refl _

theorem iterations_more (s : Scene) (further : s.view.iterations < maxIterations) :
    (s.act .moreIterations).view.iterations = s.view.iterations + 1 :=
  Nat.min_eq_left further

theorem current_more (s : Scene) : (s.act .moreIterations).current = s.current :=
  s.current_withView View.moreIterations rfl

theorem iterations_fewer (s : Scene) :
    (s.act .fewerIterations).view.iterations = s.view.iterations - 1 := by
  change (View.fewerIterations s.view).iterations = _
  unfold View.fewerIterations
  split
  · next zero => rw [zero]
  · rfl

theorem current_fewer (s : Scene) : (s.act .fewerIterations).current = s.current :=
  s.current_withView View.fewerIterations (by
    unfold View.fewerIterations
    split <;> rfl)

end Scene

namespace Session

theorem apply_settings (s : Session) (i : Intent) : (s.apply i).1.settings = s.settings := by
  obtain ⟨_, applied⟩ | ⟨_, _, applied⟩ | ⟨_, _, applied⟩ := s.apply_cases i
  · rw [applied]
  · rw [applied]
  · rw [applied]

theorem scene_of_accepted {s : Session} {i : Intent} {rebuilt : Bool}
    (accepted : (s.apply i).2 = .ok rebuilt) : (s.apply i).1.scene = s.scene.act i := by
  obtain ⟨_, applied⟩ | ⟨_, _, applied⟩ | ⟨_, _, applied⟩ := s.apply_cases i
  · rw [applied]
  · rw [applied]
  · rw [applied] at accepted
    contradiction

/-- What is displayed was expanded within the limit, so all generations up to it are within it. -/
theorem Fresh.word_of_noLarger {s : Session} (fresh : s.Fresh) {next : Scene}
    (noLarger : s.scene.NoLarger next) : ∃ word, (Uncached.mk s.settings next).word = .ok word := by
  obtain ⟨earlier, built⟩ := expandWithin_fewer fresh.word noLarger.iterations
  refine ⟨earlier, ?_⟩
  -- One of the scenes may have a pending rule that the other lacks, so both are compared by
  -- their committed rules.
  rw [Uncached.word, noLarger.alike.seed, ← expandWithin_committed, noLarger.alike.rules,
    expandWithin_committed]
  exact built

theorem accepted_of_word {s : Session} {i : Intent} {word : String}
    (built : (s.forget.act i).word = .ok word) : ∃ rebuilt, (s.apply i).2 = .ok rebuilt := by
  obtain ⟨_, applied⟩ | ⟨_, _, applied⟩ | ⟨e, refused, _⟩ := s.apply_cases i
  · exact ⟨false, congrArg (·.2) applied⟩
  · exact ⟨true, congrArg (·.2) applied⟩
  · rw [built] at refused
    contradiction

theorem apply_accepted {s : Session} (fresh : s.Fresh) {i : Intent}
    (safe : i.isSafe s.scene.view.cursor) : ∃ rebuilt, (s.apply i).2 = .ok rebuilt := by
  obtain ⟨word, built⟩ := fresh.word_of_noLarger (s.scene.act_noLarger i safe)
  exact accepted_of_word built

theorem Fresh.apply {s : Session} (fresh : s.Fresh) (i : Intent) : (s.apply i).1.Fresh :=
  (s.apply_forget fresh i).2.2.1

/-- One iteration more, if it is accepted, can be taken back. -/
theorem apply_more_fewer {s : Session} (fresh : s.Fresh)
    (further : s.scene.view.iterations < maxIterations) {rebuilt : Bool}
    (accepted : (s.apply .moreIterations).2 = .ok rebuilt) :
    let back := (s.apply .moreIterations).1.apply .fewerIterations
    (∃ rebuilt, back.2 = .ok rebuilt) ∧
      back.1.scene.view.iterations = s.scene.view.iterations ∧ back.1.word = s.word := by
  intro back
  have more := fresh.apply .moreIterations
  obtain ⟨again, taken⟩ := apply_accepted (i := .fewerIterations) more rfl
  have scene : back.1.scene = (s.scene.act .moreIterations).act .fewerIterations :=
    (scene_of_accepted taken).trans (congrArg (·.act .fewerIterations) (scene_of_accepted accepted))
  have iterations : back.1.scene.view.iterations = s.scene.view.iterations := by
    rw [scene, Scene.iterations_fewer, s.scene.iterations_more further, Nat.add_sub_cancel]
  have current : back.1.scene.current = s.scene.current := by
    rw [scene, Scene.current_fewer, Scene.current_more]
  have settings : back.1.settings = s.settings := by
    rw [apply_settings, apply_settings]
  refine ⟨⟨again, taken⟩, iterations, ?_⟩
  have word : back.1.forget.word = s.forget.word := by
    simp only [forget, Uncached.word, current, iterations, settings]
  have ends := (more.apply .fewerIterations).word
  rw [word, fresh.word] at ends
  exact (Except.ok.inj ends).symm

end Session

namespace Viewer

theorem apply_of_ok {v : Viewer} {i : Intent} {rebuilt : Bool}
    (accepted : (v.session.apply i).2 = .ok rebuilt) :
    v.apply i = { v with session := (v.session.apply i).1, message := none } := by
  simp only [apply, accepted]

theorem respond_new {v : Viewer} (viewing : v.mode = .view) {ch : Char}
    (letter : ch.toLower = 'r') (m : Terminal.Modifiers) :
    v.respond (.key (.char ch) m) = ({ v.apply .newFractal with mode := .edit }, false) := by
  have other : ch ≠ 'c' := by
    rintro rfl
    contradiction
  have stays : (Terminal.Event.key (.char ch) m).isCtrl 'c' = false := by
    simp [Terminal.Event.isCtrl, other]
  simp only [respond, wish, stays, viewing, viewKey, viewLetter, letter, Bool.false_eq_true,
    if_false]

end Viewer

namespace Session

/-- Whatever was done in a session before: the safe intents are accepted; so the letter that
copies the fractal leads to editing the copy and leaves no message, and an iteration that was
added can be taken back. -/
theorem run_accepts_safe (gallery : Gallery) (settings : Settings) (selected : Nat)
    (s : Session) (started : start gallery settings selected = .ok s) (intents : List Intent) :
    let now := s.run intents
    (∀ i, i.isSafe now.scene.view.cursor → ∃ rebuilt, (now.apply i).2 = .ok rebuilt) ∧
    (∀ (v : Viewer) (ch : Char) (m : Terminal.Modifiers),
      v.session = now → v.mode = .view → ch.toLower = 'r' →
      let (after, quits) := v.respond (.key (.char ch) m)
      quits = false ∧ after.mode = .edit ∧ after.message = none ∧
        after.session.scene.gallery.size = now.scene.gallery.size + 1 ∧
        after.session.scene.view.selected = now.scene.gallery.size ∧
        after.session.scene.current = now.scene.current.copyAs Scene.newName) ∧
    ∀ rebuilt, now.scene.view.iterations < maxIterations →
      (now.apply .moreIterations).2 = .ok rebuilt →
      let back := (now.apply .moreIterations).1.apply .fewerIterations
      (∃ rebuilt, back.2 = .ok rebuilt) ∧
        back.1.scene.view.iterations = now.scene.view.iterations ∧ back.1.word = now.word := by
  intro now
  have fresh : now.Fresh := (run_forget s (start_fresh started).2 intents).2
  refine ⟨fun i => apply_accepted fresh, ?_,
    fun _ further accepted => apply_more_fewer fresh further accepted⟩
  rintro v ch m same viewing letter
  obtain ⟨rebuilt, accepted⟩ := apply_accepted (i := .newFractal) fresh rfl
  have copied := scene_of_accepted accepted
  rw [← same] at accepted
  rw [Viewer.respond_new viewing letter, Viewer.apply_of_ok accepted, same]
  refine ⟨rfl, rfl, rfl, ?_, ?_, ?_⟩
  · rw [copied]
    exact (Gallery.size_modify ..).trans (Gallery.size_push ..)
  · rw [copied]
    rfl
  · rw [copied]
    exact now.scene.current_addCopy

/-- The dragon curve with room for nine symbols, turned and shifted. -/
theorem dragon_accepts_safe :
    let settings : Settings := { iterations := 0, limit := 9 }
    let intents := [.turnLeft, .panUp]
    ∃ s, start .seeded settings 1 = .ok s ∧
      (∃ rebuilt, ((s.run intents).apply .cursorUp).2 = .ok rebuilt) ∧
      ((Viewer.mk (s.run intents) .view (some "refused")).respond (.key (.char 'R') {})).1.message =
        none ∧
      (((s.run intents).apply .moreIterations).1.apply .fewerIterations).1.word =
        (s.run intents).word := by
  intro settings intents
  let s : Session := ⟨settings, .initial .seeded settings 1, ⟨⟨1, 0, 0⟩, "F"⟩⟩
  have started : start .seeded settings 1 = .ok s := rfl
  have built : ((s.run intents).forget.act .moreIterations).word = .ok "F+G" := by
    change expandWithin "F" (.ofPairs [('F', "F+G"), ('G', "F-G")]) 1 9 = _
    simp only [expandWithin, Table.afterWithin, Table.nextSize_eq, Table.next_eq, Table.image,
      Table.get?_ofRules]
    rfl
  obtain ⟨accepts, renews, takesBack⟩ := run_accepts_safe _ _ _ s started intents
  obtain ⟨rebuilt, more⟩ := accepted_of_word built
  refine ⟨s, started, accepts .cursorUp rfl, ?_, ?_⟩
  · exact (renews ⟨_, .view, some "refused"⟩ 'R' {} rfl rfl rfl).2.2.1
  · exact (takesBack rebuilt (by decide) more).2.2

end Session

end LSystem
