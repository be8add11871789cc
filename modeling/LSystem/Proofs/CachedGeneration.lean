import LSystem.Session
import LSystem.Proofs.Edits
import LSystem.Proofs.Expansion

/-! A session keeps one generation and rebuilds it only under another key. It is compared with a
session that keeps none and expands the selected fractal after every intent. No intent can tell
the two apart, and a refused intent leaves no trace. -/

namespace LSystem

/-- A session without a generation of its own. -/
structure Uncached where
  settings : Settings
  scene : Scene

namespace Uncached

/-- The word to display, expanded now. -/
def word (u : Uncached) : Except Oversize String :=
  expandWithin u.scene.current.seed u.scene.current.rules u.scene.view.iterations u.settings.limit

def start (gallery : Gallery) (settings : Settings) (selected : Nat) : Uncached :=
  ⟨settings, .initial gallery settings selected⟩

def act (u : Uncached) (i : Intent) : Uncached := { u with scene := u.scene.act i }

/-- Acts on an intent, expands, and takes the intent back when that is refused. -/
def apply (u : Uncached) (i : Intent) : Uncached × Except Oversize Unit :=
  match (u.act i).word with
  | .ok _ => (u.act i, .ok ())
  | .error e => (u, .error e)

def run (u : Uncached) (intents : List Intent) : Uncached :=
  intents.foldl (fun u i => (u.apply i).1) u

theorem apply_of_ok {u : Uncached} {i : Intent} {word : String}
    (built : (u.act i).word = .ok word) : u.apply i = (u.act i, .ok ()) := by
  simp only [apply, built]

theorem apply_of_error {u : Uncached} {i : Intent} {e : Oversize}
    (refused : (u.act i).word = .error e) : u.apply i = (u, .error e) := by
  simp only [apply, refused]

end Uncached

theorem Scene.generate_eq (s : Scene) (settings : Settings) :
    s.generate settings.limit = (Uncached.mk settings s).word.map fun word => ⟨s.key, word⟩ := rfl

/-- One intent apart, the key tells all that the word depends on. -/
theorem Uncached.word_of_key (u : Uncached) (i : Intent)
    (same : (u.scene.act i).key = u.scene.key) : (u.act i).word = u.word := by
  have selected : (u.scene.act i).view.selected = u.scene.view.selected :=
    congrArg GenerationKey.selected same
  have revision : (u.scene.act i).current.revision = u.scene.current.revision :=
    congrArg GenerationKey.revision same
  have iterations : (u.scene.act i).view.iterations = u.scene.view.iterations :=
    congrArg GenerationKey.iterations same
  have content := (u.scene.act_oneEdit i selected).eq_of_revision revision
  simp only [word, act, content, iterations]

namespace Session

def run (s : Session) (intents : List Intent) : Session :=
  intents.foldl (fun s i => (s.apply i).1) s

def forget (s : Session) : Uncached := ⟨s.settings, s.scene⟩

/-- The kept generation is the one that would be built now, and so is its key. -/
structure Fresh (s : Session) : Prop where
  key : s.generation.key = s.scene.key
  word : s.forget.word = .ok s.word

/-- All that an intent can come to: the generation is kept, built anew, or refused. -/
theorem apply_cases (s : Session) (i : Intent) :
    ((s.scene.act i).key = s.generation.key ∧
      s.apply i = ({ s with scene := s.scene.act i }, .ok false)) ∨
    (∃ word, (s.forget.act i).word = .ok word ∧
      s.apply i = (⟨s.settings, s.scene.act i, ⟨(s.scene.act i).key, word⟩⟩, .ok true)) ∨
    (∃ e, (s.forget.act i).word = .error e ∧ s.apply i = (s, .error e)) := by
  by_cases kept : (s.scene.act i).key = s.generation.key
  · exact .inl ⟨kept, if_pos kept⟩
  · right
    cases built : (s.forget.act i).word with
    | ok word =>
      left
      refine ⟨word, rfl, ?_⟩
      simp only [Uncached.act, forget] at built
      simp only [apply, if_neg kept, Scene.generate_eq, built, Except.map]
    | error e =>
      right
      refine ⟨e, rfl, ?_⟩
      simp only [Uncached.act, forget] at built
      simp only [apply, if_neg kept, Scene.generate_eq, built, Except.map]

/-- An accepted intent is acted on, and a refused one is not. -/
theorem apply_scene (s : Session) (i : Intent) :
    (s.apply i).1.scene = s.scene.act i ∨ (s.apply i).1 = s := by
  obtain ⟨_, applied⟩ | ⟨_, _, applied⟩ | ⟨_, _, applied⟩ := s.apply_cases i
  · exact .inl (congrArg (·.1.scene) applied)
  · exact .inl (congrArg (·.1.scene) applied)
  · exact .inr (congrArg (·.1) applied)

theorem run_preserves {P : Session → Prop} (step : ∀ s i, P s → P (s.apply i).1) {s : Session}
    (base : P s) (intents : List Intent) : P (s.run intents) := by
  induction intents generalizing s with
  | nil => exact base
  | cons i intents ih => exact ih (step s i base)

theorem start_eq (gallery : Gallery) (settings : Settings) (selected : Nat) :
    start gallery settings selected =
      (Uncached.start gallery settings selected).word.map fun word =>
        ⟨settings, .initial gallery settings selected,
          ⟨(Scene.initial gallery settings selected).key, word⟩⟩ := by
  simp only [start, Scene.generate_eq, Uncached.start]
  cases (Uncached.mk settings (Scene.initial gallery settings selected)).word <;> rfl

theorem start_fresh {gallery : Gallery} {settings : Settings} {selected : Nat} {s : Session}
    (started : start gallery settings selected = .ok s) :
    s.forget = .start gallery settings selected ∧ s.Fresh := by
  rw [start_eq] at started
  cases built : (Uncached.start gallery settings selected).word with
  | error e =>
    rw [built] at started
    contradiction
  | ok word =>
    rw [built] at started
    cases started
    exact ⟨rfl, ⟨rfl, built⟩⟩

/-- One intent has the same outcome and leads to the same state as without a kept generation,
which is again fresh; a refused one changes nothing at all. -/
theorem apply_forget (s : Session) (fresh : s.Fresh) (i : Intent) :
    (s.apply i).2.map (fun _ => ()) = (s.forget.apply i).2 ∧
    (s.apply i).1.forget = (s.forget.apply i).1 ∧
    (s.apply i).1.Fresh ∧
    ∀ e, (s.apply i).2 = .error e → (s.apply i).1 = s := by
  obtain ⟨kept, applied⟩ | ⟨word, built, applied⟩ | ⟨e, refused, applied⟩ := s.apply_cases i
  · have word : (s.forget.act i).word = .ok s.word :=
      (s.forget.word_of_key i (kept.trans fresh.key)).trans fresh.word
    rw [applied, Uncached.apply_of_ok word]
    exact ⟨rfl, rfl, ⟨kept.symm, word⟩, nofun⟩
  · rw [applied, Uncached.apply_of_ok built]
    exact ⟨rfl, rfl, ⟨rfl, built⟩, nofun⟩
  · rw [applied, Uncached.apply_of_error refused]
    exact ⟨rfl, rfl, fresh, fun _ _ => rfl⟩

theorem run_forget (s : Session) (fresh : s.Fresh) (intents : List Intent) :
    (s.run intents).forget = s.forget.run intents ∧ (s.run intents).Fresh := by
  induction intents generalizing s with
  | nil => exact ⟨rfl, fresh⟩
  | cons i intents ih =>
    obtain ⟨_, state, next, _⟩ := s.apply_forget fresh i
    have rest := ih (s.apply i).1 next
    rw [state] at rest
    exact rest

theorem run_fresh {gallery : Gallery} {settings : Settings} {selected : Nat} {s : Session}
    (started : start gallery settings selected = .ok s) (intents : List Intent) :
    (s.run intents).Fresh :=
  (s.run_forget (start_fresh started).2 intents).2

theorem Fresh.word_eq {s : Session} (fresh : s.Fresh) :
    s.word =
      expand s.scene.current.seed s.scene.current.rules.committed s.scene.view.iterations := by
  rw [expand_committed]
  exact expandWithin_ok _ _ _ _ _ fresh.word

/-- After any run the session has the gallery and the view of one that keeps no generation, and
its word is the expansion of the selected fractal; any further intent has the same outcome in
both, and a refused one leaves the whole session as it was. -/
theorem run_like_uncached (gallery : Gallery) (settings : Settings) (selected : Nat)
    (s : Session) (started : start gallery settings selected = .ok s) (intents : List Intent) :
    let now := s.run intents
    let plain := (Uncached.start gallery settings selected).run intents
    (now.scene = plain.scene ∧ now.settings = plain.settings ∧ plain.word = .ok now.word ∧
      now.word = expand now.scene.current.seed now.scene.current.rules.committed
        now.scene.view.iterations) ∧
    ∀ i, (now.apply i).2.map (fun _ => ()) = (plain.apply i).2 ∧
      ∀ e, (now.apply i).2 = .error e → (now.apply i).1 = now := by
  obtain ⟨same, fresh⟩ := start_fresh started
  obtain ⟨state, now⟩ := s.run_forget fresh intents
  rw [same] at state
  dsimp only
  rw [← state]
  refine ⟨⟨rfl, rfl, now.word, now.word_eq⟩, ?_⟩
  intro i
  obtain ⟨outcome, _, _, refused⟩ := apply_forget _ now i
  exact ⟨outcome, refused⟩

/-- The dragon curve with room for nine symbols: one iteration more, a second one that is
refused, a pending rule, and a copy that loses it. -/
theorem dragon_run_like_uncached :
    let intents := [.moreIterations, .moreIterations, .cursorDown, .cursorDown, .newFractal]
    ∃ s, start .seeded { iterations := 1, limit := 9 } 1 = .ok s ∧
      (s.run intents).scene =
        ((Uncached.start .seeded { iterations := 1, limit := 9 } 1).run intents).scene := by
  have word : (Uncached.start .seeded { iterations := 1, limit := 9 } 1).word = .ok "F+G" := by
    change expandWithin "F" (.ofPairs [('F', "F+G"), ('G', "F-G")]) 1 9 = _
    simp only [expandWithin, Table.afterWithin, Table.nextSize_eq, Table.next_eq, Table.image,
      Table.get?_ofRules]
    rfl
  have started := start_eq .seeded { iterations := 1, limit := 9 } 1
  rw [word] at started
  exact ⟨_, started, (run_like_uncached _ _ _ _ started _).1.1⟩

end Session

end LSystem
