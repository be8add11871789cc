import LSystem.Proofs.Acceptance
import LSystem.Proofs.ExpansionLimit

/-! How far the limit reaches into the preview. The session checks the generations up to the one
on display, and the preview shows the first ones without a check; so a line of the preview is sure
to be within the limit only up to the number of iterations. -/

namespace LSystem

namespace Session

/-- The lines of the preview that show generations. -/
def previewed (s : Session) : List String := s.preview.take (Cursor.previewRounds + 1)

def PreviewWithin (s : Session) : Prop :=
  ∀ line ∈ s.previewed, line.utf8ByteSize ≤ s.settings.limit

theorem previewed_eq (s : Session) : s.previewed =
    (List.range (Cursor.previewRounds + 1)).map
      (expand s.scene.current.seed s.scene.current.rules) := by
  rw [previewed, preview, Cursor.preview, List.take_left']
  simp

theorem previewWithin_iff (s : Session) : s.PreviewWithin ↔ ∀ k ≤ Cursor.previewRounds,
    (expand s.scene.current.seed s.scene.current.rules k).utf8ByteSize ≤ s.settings.limit := by
  simp only [PreviewWithin, previewed_eq, List.forall_mem_map, List.mem_range, Nat.lt_succ_iff]

theorem run_settings (s : Session) (intents : List Intent) :
    (s.run intents).settings = s.settings := by
  refine run_preserves (P := fun now => now.settings = s.settings) ?_ rfl intents
  intro now i same
  rw [apply_settings, same]

/-- Whatever is done in a session, the generations in its preview are within the limit up to the
one on display. All of them are exactly if so many rounds would be accepted. -/
theorem run_previewWithin_iff (gallery : Gallery) (settings : Settings) (selected : Nat)
    (s : Session) (started : start gallery settings selected = .ok s) (intents : List Intent) :
    let now := s.run intents
    let seed := now.scene.current.seed
    let rules := now.scene.current.rules
    now.previewed = (List.range (Cursor.previewRounds + 1)).map (expand seed rules) ∧
    (∀ k ≤ now.scene.view.iterations,
      min (expand seed rules k).utf8ByteSize maxSize ≤ settings.limit) ∧
    (settings.limit < maxSize → (now.PreviewWithin ↔
      ∃ word, expandWithin seed rules Cursor.previewRounds settings.limit = .ok word)) := by
  intro now seed rules
  have fresh : now.Fresh := run_fresh started intents
  have limit : now.settings = settings :=
    (s.run_settings intents).trans (congrArg Uncached.settings (start_fresh started).1)
  have built : expandWithin seed rules now.scene.view.iterations settings.limit = .ok now.word :=
    limit ▸ fresh.word
  refine ⟨now.previewed_eq, fun k => size_expand_of_expandWithin built, fun small => ?_⟩
  rw [previewWithin_iff, limit]
  constructor
  · intro within
    exact ⟨_, expandWithin_within seed rules _ small within⟩
  · rintro ⟨word, accepted⟩ k shown
    have fits := size_expand_of_expandWithin accepted shown
    change (expand seed rules k).utf8ByteSize ≤ settings.limit
    omega

/-- The dragon curve at generation 0 with room for the seven symbols of the second round. -/
theorem dragon_previewWithin_iff :
    ∃ s, start .seeded { iterations := 0, limit := 7 } 1 = .ok s ∧
      (s.run [.panUp, .cursorDown]).PreviewWithin := by
  have small : 7 < maxSize := by decide
  have accepted : ∃ word,
      expandWithin "F" (.ofPairs [('F', "F+G"), ('G', "F-G")]) 2 7 = .ok word := by
    refine ⟨"F+G+F-G", ?_⟩
    simp only [expandWithin, Table.afterWithin, Table.nextSize_eq, Table.next_eq, Table.image,
      Table.get?_ofRules]
    rfl
  obtain ⟨_, _, within⟩ :=
    run_previewWithin_iff .seeded { iterations := 0, limit := 7 } 1 _ rfl [.panUp, .cursorDown]
  exact ⟨_, rfl, (within small).mpr accepted⟩

/-- The dragon curve at generation 0 with room for four symbols: the second round of its preview
has seven. -/
theorem preview_beyond_limit :
    ∃ s, start .seeded { iterations := 0, limit := 4 } 1 = .ok s ∧
      s.previewed = ["F", "F+G", "F+G+F-G"] ∧ ¬ s.PreviewWithin := by
  let s : Session :=
    ⟨{ iterations := 0, limit := 4 }, .initial .seeded { iterations := 0, limit := 4 } 1,
      ⟨⟨1, 0, 0⟩, "F"⟩⟩
  have shown : s.previewed = ["F", "F+G", "F+G+F-G"] := by
    rw [previewed_eq]
    change [0, 1, 2].map (expand "F" (.ofPairs [('F', "F+G"), ('G', "F-G")])) = _
    simp only [List.map, expand, Table.after, Table.next_eq, Table.image, Table.get?_ofRules]
    rfl
  refine ⟨s, rfl, shown, fun within => ?_⟩
  have fits := within "F+G+F-G" (by simp [shown])
  contradiction

end Session

end LSystem
