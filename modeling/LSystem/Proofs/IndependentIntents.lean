import LSystem.Proofs.CachedGeneration

/-! Shifting the picture and turning the heading at first can be exchanged with every intent that
does something else. They replace numbers of the view that no other intent reads or sets, and the
generation does not depend on these; so also a refusal, which puts the whole view back, has no
effect on them. -/

namespace LSystem

namespace Intent

def isPan : Intent → Bool
  | .panUp | .panDown | .panLeft | .panRight => true
  | _ => false

def isRotation : Intent → Bool
  | .headingClockwise | .headingCounterclockwise => true
  | _ => false

/-- The first intent shifts the picture and the second does not, or the first turns the heading
at first and the second does not. -/
def Independent (i j : Intent) : Prop :=
  (i.isPan ∧ ¬ j.isPan) ∨ (i.isRotation ∧ ¬ j.isRotation)

end Intent

namespace View

/-- Replaces the heading at first and the shift of the picture. -/
def aim (v : View) (heading panX panY : Int → Int) : View :=
  { v with heading := heading v.heading, panX := panX v.panX, panY := panY v.panY }

theorem fewerIterations_aim (v : View) (heading panX panY : Int → Int) :
    (v.aim heading panX panY).fewerIterations = v.fewerIterations.aim heading panX panY := by
  unfold fewerIterations
  by_cases last : v.iterations = 0
  · rw [if_pos last]
    exact if_pos last
  · rw [if_neg last]
    exact if_neg last

end View

namespace Scene

def aim (s : Scene) (heading panX panY : Int → Int) : Scene :=
  s.withView (·.aim heading panX panY)

section

variable (s : Scene) (heading panX panY : Int → Int)

theorem key_aim : (s.aim heading panX panY).key = s.key := rfl

theorem generate_aim (limit : Nat) :
    (s.aim heading panX panY).generate limit = s.generate limit := rfl

theorem tryEdit_aim (change : Cursor → Fractal → Option (Cursor × Fractal)) :
    (s.aim heading panX panY).tryEdit change = (s.tryEdit change).aim heading panX panY := by
  have same : change (s.aim heading panX panY).view.cursor (s.aim heading panX panY).current =
      change s.view.cursor s.current := rfl
  simp only [tryEdit, same]
  cases change s.view.cursor s.current with
  | some changed => rfl
  | none => rfl

/-- All other intents leave the heading at first and the shift alone, and do not look at them. -/
theorem act_aim {i : Intent} (shifts : ¬ i.isPan) (rotates : ¬ i.isRotation) :
    (s.aim heading panX panY).act i = (s.act i).aim heading panX panY := by
  unfold act
  cases i with
  | panUp | panDown | panLeft | panRight => exact absurd rfl shifts
  | headingClockwise | headingCounterclockwise => exact absurd rfl rotates
  | append ch => exact s.tryEdit_aim heading panX panY _
  | backspace => exact s.tryEdit_aim heading panX panY _
  | fewerIterations => simp [aim, withView, View.fewerIterations_aim]
  | _ => rfl

end

def moved (delta n : Int) : Int := saturate32 (n + delta)

theorem act_of_isPan {i : Intent} (shifts : i.isPan) :
    ∃ dx dy, ∀ s : Scene, s.act i = s.aim id (moved dx) (moved dy) := by
  cases i with
  | panUp => exact ⟨0, -1, fun _ => rfl⟩
  | panDown => exact ⟨0, 1, fun _ => rfl⟩
  | panLeft => exact ⟨-1, 0, fun _ => rfl⟩
  | panRight => exact ⟨1, 0, fun _ => rfl⟩
  | _ => contradiction

theorem act_of_isRotation {i : Intent} (rotates : i.isRotation) :
    ∃ degrees, ∀ s : Scene, s.act i = s.aim (moved degrees) id id := by
  cases i with
  | headingClockwise => exact ⟨1, fun _ => rfl⟩
  | headingCounterclockwise => exact ⟨-1, fun _ => rfl⟩
  | _ => contradiction

/-- An intent that is independent of another one replaces numbers that the other one passes by. -/
theorem act_of_independent {i j : Intent} (independent : i.Independent j) :
    ∃ heading panX panY, ∀ s : Scene, s.act i = s.aim heading panX panY ∧
      (s.aim heading panX panY).act j = (s.act j).aim heading panX panY := by
  obtain ⟨shifts, others⟩ | ⟨rotates, others⟩ := independent
  · obtain ⟨dx, dy, acts⟩ := act_of_isPan shifts
    refine ⟨id, moved dx, moved dy, fun s => ⟨acts s, ?_⟩⟩
    by_cases rotation : j.isRotation
    · obtain ⟨degrees, turns⟩ := act_of_isRotation rotation
      rw [turns, turns]
      rfl
    · exact s.act_aim _ _ _ others rotation
  · obtain ⟨degrees, acts⟩ := act_of_isRotation rotates
    refine ⟨moved degrees, id, id, fun s => ⟨acts s, ?_⟩⟩
    by_cases pan : j.isPan
    · obtain ⟨dx, dy, shifts⟩ := act_of_isPan pan
      rw [shifts, shifts]
      rfl
    · exact s.act_aim _ _ _ pan others

end Scene

namespace Session

/-- The session with another heading at first and another shift. -/
def aim (s : Session) (heading panX panY : Int → Int) : Session :=
  { s with scene := s.scene.aim heading panX panY }

theorem apply_aim {s : Session} (fresh : s.Fresh) {i : Intent} {heading panX panY : Int → Int}
    (acts : s.scene.act i = s.scene.aim heading panX panY) :
    s.apply i = (s.aim heading panX panY, .ok false) := by
  have kept : (s.scene.aim heading panX panY).key = s.generation.key := fresh.key.symm
  simp only [apply, acts, if_pos kept]
  rfl

/-- An intent that passes these numbers by comes to the same with others in their place. -/
theorem aim_apply {s : Session} {j : Intent} {heading panX panY : Int → Int}
    (passes : (s.scene.aim heading panX panY).act j =
      (s.scene.act j).aim heading panX panY) :
    (s.aim heading panX panY).apply j =
      ((s.apply j).1.aim heading panX panY, (s.apply j).2) := by
  simp only [apply, aim, passes, Scene.key_aim, Scene.generate_aim]
  by_cases kept : (s.scene.act j).key = s.generation.key
  · simp only [if_pos kept]
  · simp only [if_neg kept]
    cases (s.scene.act j).generate s.settings.limit with
    | ok generation => rfl
    | error e => rfl

/-- After any run, independent intents can be exchanged: both orders end in the same session, the
second intent has the same outcome in both, and the first is accepted in both without a new
generation. In particular a refusal of the second does not take the first back. -/
theorem run_apply_comm (gallery : Gallery) (settings : Settings) (selected : Nat) (s : Session)
    (started : start gallery settings selected = .ok s) (intents : List Intent) (i j : Intent)
    (independent : i.Independent j) :
    let now := s.run intents
    ((now.apply i).1.apply j).1 = ((now.apply j).1.apply i).1 ∧
      ((now.apply i).1.apply j).2 = (now.apply j).2 ∧
      (now.apply i).2 = .ok false ∧ ((now.apply j).1.apply i).2 = .ok false ∧
      ∀ e, (now.apply j).2 = .error e → ((now.apply i).1.apply j).1 = (now.apply i).1 := by
  intro now
  obtain ⟨heading, panX, panY, acts⟩ := Scene.act_of_independent independent
  have fresh : now.Fresh := run_fresh started intents
  obtain ⟨_, _, later, refused⟩ := apply_forget now fresh j
  rw [apply_aim fresh (acts now.scene).1, apply_aim later (acts _).1,
    aim_apply (acts now.scene).2]
  refine ⟨rfl, rfl, rfl, rfl, fun e failed => ?_⟩
  exact congrArg (·.aim heading panX panY) (refused e failed)

/-- The dragon curve with room for one symbol: a further iteration is refused, before and after
the picture is shifted. -/
theorem dragon_apply_comm :
    let settings : Settings := { iterations := 0, limit := 1 }
    ∃ s, start .seeded settings 1 = .ok s ∧
      (((s.run [.turnLeft]).apply .panUp).1.apply .moreIterations).1 =
        (((s.run [.turnLeft]).apply .moreIterations).1.apply .panUp).1 := by
  intro settings
  exact ⟨_, rfl, (run_apply_comm .seeded settings 1 _ rfl [.turnLeft] .panUp .moreIterations
    (.inl ⟨rfl, Bool.false_ne_true⟩)).1⟩

end Session

end LSystem
