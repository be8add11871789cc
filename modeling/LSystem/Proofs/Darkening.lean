import LSystem.Proofs.PictureSize
import LSystem.Proofs.RampPlaces
import Mathlib.Data.Rat.Floor
import Mathlib.Tactic.Linarith

/-! Strokes only darken, in exact numbers. What a dot leaves uncovered is at most the whole, and rounding
to the nearest integer does not lead from below an integer to above it, so no channel gets lighter by a
dot, and from dot to dot and stroke to stroke no pixel does. -/

namespace LSystem

namespace Pixel

theorem NoLighter.refl (p : Pixel) : p.NoLighter p :=
  ⟨UInt8.le_refl _, UInt8.le_refl _, UInt8.le_refl _⟩

theorem NoLighter.trans {p q r : Pixel} (first : p.NoLighter q) (second : q.NoLighter r) :
    p.NoLighter r :=
  ⟨UInt8.le_trans first.red second.red, UInt8.le_trans first.green second.green,
    UInt8.le_trans first.blue second.blue⟩

theorem map_noLighter {f : UInt8 → UInt8} (darkens : ∀ channel, f channel ≤ channel) (p : Pixel) :
    (p.map f).NoLighter p := ⟨darkens _, darkens _, darkens _⟩

end Pixel

theorem fade_le {keep : Rat} (most : keep ≤ 1) (channel : UInt8) :
    Coordinate.fade channel keep ≤ channel := by
  have product : (channel.toNat : Rat) * keep ≤ channel.toNat :=
    mul_le_of_le_one_right (Nat.cast_nonneg _) most
  have rounded : ⌊(channel.toNat : Rat) * keep + 1 / 2⌋ < channel.toNat + 1 := by
    rw [Int.floor_lt]
    push_cast
    linarith
  rw [UInt8.le_iff_toNat_le]
  calc (Coordinate.fade channel keep).toNat
      = ⌊(channel.toNat : Rat) * keep + 1 / 2⌋.toNat % 256 := rfl
    _ ≤ ⌊(channel.toNat : Rat) * keep + 1 / 2⌋.toNat := Nat.mod_le _ _
    _ ≤ channel.toNat := by omega

namespace Canvas

/-- The canvases are of one size, and no pixel of the first is lighter than that of the second. -/
structure NoLighter (c d : Canvas) : Prop where
  size : c.size = d.size
  pixels : ∀ {x y q}, d.get? x y = some q → ∃ p, c.get? x y = some p ∧ p.NoLighter q

theorem NoLighter.refl (c : Canvas) : c.NoLighter c := ⟨rfl, fun here => ⟨_, here, .refl _⟩⟩

theorem NoLighter.trans {c d e : Canvas} (first : c.NoLighter d) (second : d.NoLighter e) :
    c.NoLighter e := by
  constructor
  case size => exact first.size.trans second.size
  case pixels =>
    intro x y r here
    obtain ⟨q, between, lower⟩ := second.pixels here
    obtain ⟨p, there, lowest⟩ := first.pixels between
    exact ⟨p, there, lowest.trans lower⟩

theorem modify_noLighter {f : Pixel → Pixel} (darkens : ∀ p, (f p).NoLighter p) (c : Canvas)
    (x y : Nat) : (c.modify x y f).NoLighter c := by
  constructor
  case size => exact c.size_modify x y f
  case pixels =>
    intro i j p here
    rw [get?_modify, here]
    split
    · exact ⟨f p, rfl, darkens p⟩
    · exact ⟨p, rfl, .refl p⟩

theorem foldl_noLighter {β : Type} {step : Canvas → β → Canvas}
    (darkens : ∀ c b, (step c b).NoLighter c) (items : List β) (c : Canvas) :
    (items.foldl step c).NoLighter c := by
  induction items generalizing c with
  | nil => exact .refl c
  | cons b items ih => exact (ih (step c b)).trans (darkens c b)

theorem darken_eq (c : Canvas) (d : Dot Rat) :
    c.darken d =
      if (d.coverage ≤ 0 ∨ d.x < 0) ∨ d.y < 0 then c
      else c.modify ⌊d.x⌋.toNat ⌊d.y⌋.toNat (·.map (Coordinate.fade · (1 - min d.coverage 1))) := by
  unfold darken
  simp only [Coordinate.le, Coordinate.lt, Bool.or_eq_true, decide_eq_true_eq, min_def_lt]
  rfl

theorem darken_noLighter (c : Canvas) (d : Dot Rat) : (c.darken d).NoLighter c := by
  rw [darken_eq]
  split
  · exact .refl c
  · next drawn =>
    have covered : 0 < d.coverage := not_le.mp fun none => drawn (.inl (.inl none))
    have most : 1 - min d.coverage 1 ≤ 1 := sub_le_self 1 (le_min covered.le zero_le_one)
    exact modify_noLighter (Pixel.map_noLighter (fade_le most)) c _ _

theorem stroke_noLighter (stretch : Rat) (c : Canvas) (s : Segment Rat) :
    (c.stroke stretch s).NoLighter c := by
  unfold stroke
  dsimp only
  split
  · exact foldl_noLighter darken_noLighter _ c
  · exact .refl c

theorem NoLighter.place? {c d : Canvas} (darker : c.NoLighter d) (r : GlyphRamp) {x y : Nat}
    (column : x < d.width) (row : y < d.height) :
    ∃ i j, c.place? r x y = some i ∧ d.place? r x y = some j ∧ i ≤ j := by
  obtain ⟨q, _, light⟩ := exists_get? column row
  obtain ⟨p, dark, lower⟩ := darker.pixels light
  exact ⟨_, _, congrArg (Option.map _) dark, congrArg (Option.map _) light,
    r.indexOfGray_mono lower.gray⟩

/-- No stroke makes a pixel lighter, on any canvas and after any other strokes, so a picture with further
strokes is nowhere lighter, and no place on the ramp is nearer to the light end. -/
theorem strokes_darken (stretch : Rat) :
    (∀ (c : Canvas) (d : Dot Rat), (c.darken d).NoLighter c) ∧
    (∀ (c : Canvas) (strokes more : List (Segment Rat)),
      (strokes.foldl (stroke stretch) c).NoLighter c ∧
      ((strokes ++ more).foldl (stroke stretch) c).NoLighter (strokes.foldl (stroke stretch) c)) ∧
    ∀ (width height : Nat) (strokes more : List (Segment Rat)),
      (drawn stretch width height (strokes ++ more)).NoLighter (drawn stretch width height strokes) ∧
      ∀ (r : GlyphRamp) x y, x < width → y < height → ∃ i j,
        (drawn stretch width height (strokes ++ more)).place? r x y = some i ∧
          (drawn stretch width height strokes).place? r x y = some j ∧ i ≤ j := by
  have run (c : Canvas) (strokes : List (Segment Rat)) :
      (strokes.foldl (stroke stretch) c).NoLighter c :=
    foldl_noLighter (stroke_noLighter stretch) strokes c
  refine ⟨darken_noLighter, fun c strokes more => ⟨run c strokes, ?_⟩,
    fun width height strokes more => ?_⟩
  · rw [List.foldl_append]
    exact run _ more
  · have further : (drawn stretch width height (strokes ++ more)).NoLighter
        (drawn stretch width height strokes) := by
      rw [drawn, drawn, List.foldl_append]
      exact run _ more
    obtain ⟨columns, rows⟩ := Prod.mk.inj (run (blank width height) strokes).size
    refine ⟨further, fun r x y column row => ?_⟩
    exact further.place? r (columns.symm ▸ column) (rows.symm ▸ row)

/-- A stroke between two rows covers half of each pixel, and what it leaves is halved again. -/
theorem repeated_stroke_darkens :
    let s : Segment Rat := ⟨⟨0, 5 / 2⟩, ⟨7, 5 / 2⟩⟩
    (drawn 1 8 8 [s]).place? .standard 3 2 = some 33 ∧
    (drawn 1 8 8 [s, s]).place? .standard 3 2 = some 16 ∧
    (drawn 1 8 8 [s, s]).NoLighter (drawn 1 8 8 [s]) ∧
    ∃ i j, (drawn 1 8 8 [s, s]).place? .standard 7 7 = some i ∧
      (drawn 1 8 8 [s]).place? .standard 7 7 = some j ∧ i ≤ j := by
  intro s
  obtain ⟨_, _, further⟩ := strokes_darken 1
  obtain ⟨darker, place⟩ := further 8 8 [s] [s]
  exact ⟨by decide +kernel, by decide +kernel, darker,
    place .standard 7 7 (by decide) (by decide)⟩

end Canvas

end LSystem
