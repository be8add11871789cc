import LSystem.Proofs.Acceptance

/-! What intents leave alone. An entry of the gallery stays where it is, and it changes only by an
intent that finds it selected; the gallery grows only by copies. Intents that steer the picture
leave all entries alone, and those that edit leave all of the view alone but the cursor. -/

namespace LSystem

namespace Intent

/-- Whether the intent turns, scales or shifts the picture, or asks for another generation. -/
def isSteering : Intent → Bool
  | .turnLeft | .turnRight | .growLength | .shrinkLength | .moreIterations | .fewerIterations
  | .panUp | .panDown | .panLeft | .panRight | .headingClockwise | .headingCounterclockwise => true
  | _ => false

/-- Whether the intent moves the cursor or types. -/
def isEdit : Intent → Bool
  | .enterField _ | .toggleHalf | .editSymbol | .editValue | .append _ | .backspace
  | .cursorUp | .cursorDown => true
  | _ => false

end Intent

namespace Gallery

theorem get?_push_of_lt {g : Gallery} {k : Nat} (inside : k < g.size) (f : Fractal) :
    (g.push f).get? k = g.get? k :=
  List.getElem?_append_left inside

theorem lt_size_of_get? {g : Gallery} {k : Nat} {f : Fractal} (found : g.get? k = some f) :
    k < g.size :=
  (List.getElem?_eq_some_iff.mp found).1

/-- All entries are still in their places, and they are the same except for the one at `k`, which the
intent may have edited once. -/
structure Keeps (i : Intent) (g : Gallery) (k : Nat) (next : Gallery) : Prop where
  others : ∀ j < g.size, j ≠ k → next.get? j = g.get? j
  edited : ∀ f, g.get? k = some f → ∃ now, next.get? k = some now ∧ f.OneEdit i now

variable {i : Intent}

theorem Keeps.refl (g : Gallery) (k : Nat) : g.Keeps i k g where
  others _ _ _ := rfl
  edited f found := ⟨f, found, .inl rfl⟩

theorem keeps_modify {g : Gallery} {k : Nat} {change : Fractal → Fractal}
    (once : ∀ f, g.get? k = some f → f.OneEdit i (change f)) : g.Keeps i k (g.modify k change) where
  others _ _ apart := g.get?_modify (Ne.symm apart) change
  edited f found := by
    refine ⟨change f, ?_, once f found⟩
    simp only [get?] at found
    simp [get?, modify, found]

theorem Keeps.of_push {g next : Gallery} {k : Nat} {f : Fractal}
    (keeps : (g.push f).Keeps i k next) : g.Keeps i k next where
  others j inside apart := by
    have still : j < (g.push f).size := by
      rw [size_push]
      omega
    rw [keeps.others j still apart, get?_push_of_lt inside]
  edited old found := by
    have inside := lt_size_of_get? found
    exact keeps.edited old ((get?_push_of_lt inside f).trans found)

end Gallery

namespace Scene

/-- All that an intent can come to, by its kind. -/
inductive Outcome (s : Scene) : Intent → Scene → Prop where
  | steered {i : Intent} (steers : i.isSteering) (change : View → View)
      (keeps : (change s.view).selected = s.view.selected) : Outcome s i (s.withView change keeps)
  | edited {i : Intent} (edits : i.isEdit) (change : Cursor → Fractal → Cursor × Fractal)
      (once : s.current.OneEdit i (change s.view.cursor s.current).2) : Outcome s i (s.edit change)
  | rejected {i : Intent} (edits : i.isEdit) : Outcome s i s
  | next : Outcome s .nextFractal (s.select _ (s.gallery.next_lt s.view.selected))
  | previous : Outcome s .previousFractal (s.select _ (s.gallery.previous_lt s.view.selected))
  | copied : Outcome s .newFractal s.addCopy

theorem tryEdit_outcome {s : Scene} {i : Intent} (edits : i.isEdit)
    (change : Cursor → Fractal → Option (Cursor × Fractal))
    (once : ∀ moved, change s.view.cursor s.current = some moved → s.current.OneEdit i moved.2) :
    s.Outcome i (s.tryEdit change) := by
  unfold tryEdit
  split
  · next moved found => exact .edited edits _ (once moved found)
  · exact .rejected edits

theorem act_outcome (s : Scene) (i : Intent) : s.Outcome i (s.act i) := by
  unfold act
  cases i with
  | nextFractal => exact .next
  | previousFractal => exact .previous
  | newFractal => exact .copied
  | append ch => exact tryEdit_outcome rfl _ fun _ => Cursor.type_oneEdit
  | backspace => exact tryEdit_outcome rfl _ fun _ => Cursor.erase_oneEdit
  | cursorUp => exact .edited rfl _ (Cursor.moveUp_oneEdit _ _)
  | cursorDown => exact .edited rfl _ (Cursor.moveDown_oneEdit _ _)
  | enterField _ | toggleHalf | editSymbol | editValue => exact .edited rfl _ (.inl rfl)
  | _ => exact .steered rfl _ _

theorem select_keeps (s : Scene) {i : Intent} (makes : i.Makes .dropPending) (k : Nat)
    (inside : k < s.gallery.size) :
    s.gallery.Keeps i s.view.selected (s.select k inside).gallery :=
  Gallery.keeps_modify fun f _ => f.dropPending_oneEdit makes

theorem Outcome.keeps {s next : Scene} {i : Intent} (outcome : s.Outcome i next) :
    s.gallery.Keeps i s.view.selected next.gallery := by
  cases outcome with
  | steered | rejected => exact .refl _ _
  | edited _ change once =>
    refine Gallery.keeps_modify fun f found => ?_
    cases s.get?_selected.symm.trans found
    exact once
  | next => exact s.select_keeps (.dropPending (by simp)) _ _
  | previous => exact s.select_keeps (.dropPending (by simp)) _ _
  | copied =>
    refine .of_push (f := s.current.copyAs newName) ?_
    exact Gallery.keeps_modify fun f _ => f.dropPending_oneEdit (.dropPending (by simp))

theorem size_addCopy (s : Scene) : s.addCopy.gallery.size = s.gallery.size + 1 :=
  (Gallery.size_modify ..).trans (Gallery.size_push ..)

theorem Outcome.size_eq {s next : Scene} {i : Intent} (outcome : s.Outcome i next)
    (other : i ≠ .newFractal) : next.gallery.size = s.gallery.size := by
  cases outcome with
  | steered | rejected => rfl
  | edited | next | previous => exact Gallery.size_modify ..
  | copied => contradiction

theorem Outcome.gallery_eq {s next : Scene} {i : Intent} (outcome : s.Outcome i next)
    (steers : i.isSteering) : next.gallery = s.gallery := by
  cases outcome with
  | steered => rfl
  | rejected => rfl
  | edited edits => cases i <;> contradiction
  | next | previous | copied => contradiction

theorem Outcome.view_eq {s next : Scene} {i : Intent} (outcome : s.Outcome i next)
    (edits : i.isEdit) : ∃ cursor, next.view = { s.view with cursor } := by
  cases outcome with
  | edited | rejected => exact ⟨_, rfl⟩
  | steered steers => cases i <;> contradiction
  | next | previous | copied => contradiction

/-- The last entry after a copy is the copy. -/
theorem get?_addCopy (s : Scene) :
    s.addCopy.gallery.get? s.gallery.size = some (s.current.copyAs newName) := by
  rw [← s.current_addCopy]
  exact s.addCopy.get?_selected

end Scene

namespace Session

/-- What holds of the scene when an intent is acted on or not holds of it when it is applied. -/
theorem apply_scene_cases {s : Session} {i : Intent} {P : Scene → Prop}
    (acted : ∀ next, s.scene.Outcome i next → P next) (refused : P s.scene) :
    P (s.apply i).1.scene := by
  obtain scene | same := s.apply_scene i
  · rw [scene]
    exact acted _ (s.scene.act_outcome i)
  · rw [same]
    exact refused

theorem apply_newFractal {s : Session} (fresh : s.Fresh) :
    (s.apply .newFractal).1.scene = s.scene.addCopy := by
  obtain ⟨rebuilt, accepted⟩ := apply_accepted (i := .newFractal) fresh rfl
  exact scene_of_accepted accepted

theorem apply_keeps (s : Session) (i : Intent) :
    s.scene.gallery.Keeps i s.scene.view.selected (s.apply i).1.scene.gallery :=
  apply_scene_cases (fun _ outcome => outcome.keeps) (.refl _ _)

theorem size_apply {s : Session} (fresh : s.Fresh) (i : Intent) :
    (s.apply i).1.scene.gallery.size =
      s.scene.gallery.size + if i = .newFractal then 1 else 0 := by
  by_cases copies : i = .newFractal
  · subst copies
    rw [apply_newFractal fresh, Scene.size_addCopy, if_pos rfl]
  · rw [if_neg copies]
    exact apply_scene_cases (P := fun next => next.gallery.size = s.scene.gallery.size)
      (fun _ outcome => outcome.size_eq copies) rfl

theorem size_run {s : Session} (fresh : s.Fresh) (intents : List Intent) :
    (s.run intents).scene.gallery.size =
      s.scene.gallery.size + intents.count .newFractal := by
  induction intents generalizing s with
  | nil => rfl
  | cons i intents ih =>
    have rest := ih (fresh.apply i)
    rw [size_apply fresh] at rest
    change ((s.apply i).1.run intents).scene.gallery.size = _
    rw [rest, List.count_cons]
    simp [Nat.add_assoc, Nat.add_comm]

/-- The entries that are selected when the intents of a run are applied. -/
def selections (s : Session) : List Intent → List Nat
  | [] => []
  | i :: intents => s.scene.view.selected :: (s.apply i).1.selections intents

theorem get?_run {s : Session} {k : Nat} {f : Fractal} {intents : List Intent}
    (found : s.scene.gallery.get? k = some f) (never : k ∉ s.selections intents) :
    (s.run intents).scene.gallery.get? k = some f := by
  induction intents generalizing s with
  | nil => exact found
  | cons i intents ih =>
    obtain ⟨apart, later⟩ := not_or.mp fun mem => never (List.mem_cons.mpr mem)
    refine ih ?_ later
    rw [(s.apply_keeps i).others k (Gallery.lt_size_of_get? found) apart, found]

/-- The frame of the gallery. After any run, and over any further one: the gallery has grown by one
for each copy, and an entry is where it was, the same if it was never selected when an intent was
applied. Every intent keeps all entries in their places, and edits no other than the selected one; that
one it edits at most once, as the intent says.
A copy is last and has the seed, the angle and the committed rules of the entry that was selected.
The steering intents leave the gallery alone, and the edits all of the view but the cursor. -/
theorem run_keeps_gallery (gallery : Gallery) (settings : Settings) (selected : Nat) (s : Session)
    (started : start gallery settings selected = .ok s) (intents later : List Intent) :
    let now := s.run intents
    (now.run later).scene.gallery.size = now.scene.gallery.size + later.count .newFractal ∧
    (∀ k f, now.scene.gallery.get? k = some f → k ∉ now.selections later →
      (now.run later).scene.gallery.get? k = some f) ∧
    (∀ i, now.scene.gallery.Keeps i now.scene.view.selected (now.apply i).1.scene.gallery) ∧
    (∃ copy, (now.apply .newFractal).1.scene.gallery.get? now.scene.gallery.size = some copy ∧
      copy.seed = now.scene.current.seed ∧ copy.angle = now.scene.current.angle ∧
      copy.rules = now.scene.current.rules.committed) ∧
    (∀ i, i.isSteering → (now.apply i).1.scene.gallery = now.scene.gallery) ∧
    (∀ i, i.isEdit → ∃ cursor, (now.apply i).1.scene.view = { now.scene.view with cursor }) := by
  intro now
  have fresh : now.Fresh := run_fresh started intents
  refine ⟨size_run fresh later, fun _ _ => get?_run, now.apply_keeps, ?_, ?_, ?_⟩
  · refine ⟨now.scene.current.copyAs Scene.newName, ?_, rfl, rfl, rfl⟩
    rw [apply_newFractal fresh, Scene.get?_addCopy]
  · intro i steers
    exact apply_scene_cases (P := fun next => next.gallery = now.scene.gallery)
      (fun _ outcome => outcome.gallery_eq steers) rfl
  · intro i edits
    exact apply_scene_cases
      (P := fun next => ∃ cursor, next.view = { now.scene.view with cursor })
      (fun _ outcome => outcome.view_eq edits) ⟨_, rfl⟩

/-- The dragon curve gets a longer name and is copied, and the copy a longer name too; the plant,
which is the first entry, is not touched. -/
theorem dragon_keeps_gallery :
    let later := [.append 'a', .newFractal, .panUp, .append 'b']
    ∃ s, start .seeded { iterations := 0 } 1 = .ok s ∧
      ((s.run [.turnLeft]).run later).scene.gallery.size = 4 ∧
      ((s.run [.turnLeft]).run later).scene.gallery.get? 0 = Gallery.seeded.get? 0 := by
  intro later
  let s : Session := ⟨{ iterations := 0 }, .initial .seeded { iterations := 0 } 1, ⟨⟨1, 0, 0⟩, "F"⟩⟩
  obtain ⟨size, others, _⟩ :=
    run_keeps_gallery .seeded { iterations := 0 } 1 s rfl [.turnLeft] later
  have never : 0 ∉ (s.run [.turnLeft]).selections later := by decide +kernel
  exact ⟨s, rfl, size, others 0 _ rfl never⟩

end Session

end LSystem
