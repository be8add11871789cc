import LSystem.Stroke
import Mathlib.Data.Rat.Floor
import Mathlib.Tactic.Linarith
import Mathlib.Tactic.NormNum
import Mathlib.Tactic.Ring

/-! Clipping in exact numbers. A line is followed by a parameter, and on the inner side of a side lie the
parameters up to some value or from some value on. The interval that is left after all four cuts has
just the parameters inside the box, so clipping neither loses a point of the box nor keeps one outside. -/

namespace LSystem

namespace Point

/-- The point at parameter `t` of the line from `a`, where `t` is 0, to `b`, where `t` is 1. -/
def toward (a b : Point Rat) (t : Rat) : Point Rat :=
  ⟨(b.x - a.x) * t + a.x, (b.y - a.y) * t + a.y⟩

/-- The points of the line from `a` to `b`, both included. -/
def Between (a b p : Point Rat) : Prop := ∃ t, (0 ≤ t ∧ t ≤ 1) ∧ p = a.toward b t

theorem toward_zero (a b : Point Rat) : a.toward b 0 = a := by simp [toward]

theorem toward_one (a b : Point Rat) : a.toward b 1 = b := by simp [toward]

theorem toward_toward (a b : Point Rat) (t u s : Rat) :
    (a.toward b t).toward (a.toward b u) s = a.toward b ((u - t) * s + t) := by
  simp only [toward, mk.injEq]
  constructor <;> ring

theorem between_toward_iff {a b : Point Rat} {t u : Rat} (ordered : t ≤ u) (p : Point Rat) :
    (a.toward b t).Between (a.toward b u) p ↔ ∃ s, (t ≤ s ∧ s ≤ u) ∧ p = a.toward b s := by
  constructor
  · rintro ⟨s, ⟨lower, upper⟩, rfl⟩
    rw [toward_toward]
    have rises := mul_nonneg (sub_nonneg.mpr ordered) lower
    have falls := mul_nonneg (sub_nonneg.mpr ordered) (sub_nonneg.mpr upper)
    exact ⟨_, ⟨by linarith, by linarith⟩, rfl⟩
  · rintro ⟨s, ⟨lower, upper⟩, rfl⟩
    rcases ordered.eq_or_lt with rfl | apart
    · -- An interval of one parameter leaves nothing to divide by.
      obtain rfl : s = t := le_antisymm upper lower
      exact ⟨0, ⟨le_rfl, zero_le_one⟩, (toward_zero ..).symm⟩
    · have wide := sub_pos.mpr apart
      refine ⟨(s - t) / (u - t), ⟨div_nonneg (sub_nonneg.mpr lower) wide.le, ?_⟩, ?_⟩
      · rw [div_le_one wide]
        linarith
      · rw [toward_toward, mul_div_cancel₀ _ wide.ne', sub_add_cancel]

end Point

/-- At most two pixels beside the canvas in either direction. -/
def Canvas.Near (c : Canvas) (p : Point Rat) : Prop :=
  (-2 ≤ p.x ∧ p.x ≤ c.width + 2) ∧ (-2 ≤ p.y ∧ p.y ≤ c.height + 2)

namespace Box

/-- The parameters with a property are those of an interval that is not empty, or there are none. -/
def Exact (S : Rat → Prop) : Option (Rat × Rat) → Prop
  | none => ∀ s, ¬ S s
  | some t => t.1 ≤ t.2 ∧ ∀ s, S s ↔ t.1 ≤ s ∧ s ≤ t.2

theorem Exact.congr {S T : Rat → Prop} {t : Option (Rat × Rat)} (same : ∀ s, S s ↔ T s)
    (kept : Exact S t) : Exact T t := by
  obtain rfl : S = T := funext fun s => propext (same s)
  exact kept

/-- Both ends of the interval have the property. -/
theorem Exact.ends {S : Rat → Prop} {t : Rat × Rat} (kept : Exact S (some t)) : S t.1 ∧ S t.2 :=
  ⟨(kept.2 t.1).mpr ⟨le_rfl, kept.1⟩, (kept.2 t.2).mpr ⟨kept.1, le_rfl⟩⟩

theorem cut_eq (t : Rat × Rat) (p q : Rat) :
    cut t (p, q) =
      if p = 0 then if q < 0 then none else some t
      else if p < 0 then if t.2 < q / p then none else some (max t.1 (q / p), t.2)
      else if q / p < t.1 then none else some (t.1, min (q / p) t.2) := by
  unfold cut
  simp only [Coordinate.eq, Coordinate.lt, decide_eq_true_eq, max_def_lt, min_def_lt]

theorem cut_exact {t : Rat × Rat} (proper : t.1 ≤ t.2) (side : Rat × Rat) :
    Exact (fun s => (t.1 ≤ s ∧ s ≤ t.2) ∧ side.1 * s ≤ side.2) (cut t side) := by
  obtain ⟨p, q⟩ := side
  rw [cut_eq]
  rcases lt_trichotomy p 0 with enters | rfl | leaves
  · have later (s : Rat) : p * s ≤ q ↔ q / p ≤ s := by rw [div_le_iff_of_neg enters, mul_comm]
    simp only [enters.ne, enters, if_true, if_false, later]
    split
    · next beyond =>
      rintro s ⟨⟨_, upper⟩, behind⟩
      exact absurd (behind.trans upper) (not_le.mpr beyond)
    · next reached =>
      refine ⟨max_le proper (not_lt.mp reached), fun s => ?_⟩
      rw [max_le_iff]
      tauto
  · simp only [if_true, zero_mul]
    split
    · next beyond => exact fun s inside => absurd inside.2 (not_le.mpr beyond)
    · next inner => exact ⟨proper, fun s => and_iff_left (not_lt.mp inner)⟩
  · have earlier (s : Rat) : p * s ≤ q ↔ s ≤ q / p := by rw [le_div_iff₀ leaves, mul_comm]
    simp only [leaves.ne', leaves.not_gt, if_false, earlier]
    split
    · next beyond =>
      rintro s ⟨⟨lower, _⟩, ahead⟩
      exact absurd (lower.trans ahead) (not_le.mpr beyond)
    · next reached =>
      refine ⟨le_min (not_lt.mp reached) proper, fun s => ?_⟩
      rw [le_min_iff]
      tauto

/-- The interval is exact for the sides that have been cut at so far, whatever they are. -/
theorem cuts_exact (sides : List (Rat × Rat)) {S : Rat → Prop} {t : Rat × Rat}
    (kept : Exact S (some t)) :
    Exact (fun s => S s ∧ ∀ side ∈ sides, side.1 * s ≤ side.2) (sides.foldlM cut t) := by
  induction sides generalizing S t with
  | nil => exact kept.congr fun s => by simp
  | cons side sides ih =>
    have first : Exact (fun s => S s ∧ side.1 * s ≤ side.2) (cut t side) :=
      (cut_exact kept.1 side).congr fun s => by rw [kept.2 s]
    rw [List.foldlM_cons]
    cases left : cut t side with
    | none =>
      rw [left] at first
      exact fun s inside => first s ⟨inside.1, inside.2 side List.mem_cons_self⟩
    | some u =>
      rw [left] at first
      refine (ih first).congr fun s => ?_
      simp only [List.forall_mem_cons, and_assoc]

theorem start_exact : Exact (fun s => 0 ≤ s ∧ s ≤ 1) (some (0, 1)) :=
  ⟨zero_le_one, fun _ => Iff.rfl⟩

theorem around_eq (c : Canvas) : (around c : Box Rat) = ⟨-2, -2, c.width + 2, c.height + 2⟩ := rfl

theorem sides_iff (c : Canvas) (a b : Point Rat) (s : Rat) :
    (∀ side ∈ (around c).sides a (b.x - a.x) (b.y - a.y), side.1 * s ≤ side.2) ↔
      c.Near (a.toward b s) := by
  have low (d e : Rat) : -d * s ≤ e - -2 ↔ -2 ≤ d * s + e := by
    constructor <;> intro <;> linarith
  have high (d e most : Rat) : d * s ≤ most - e ↔ d * s + e ≤ most := by
    constructor <;> intro <;> linarith
  simp only [sides, around_eq, List.forall_mem_cons, Canvas.Near, Point.toward, low, high]
  simp only [List.not_mem_nil, false_implies, implies_true, and_true, and_assoc]

theorem interval?_exact (c : Canvas) (a b : Point Rat) :
    Exact (fun s => (0 ≤ s ∧ s ≤ 1) ∧ c.Near (a.toward b s))
      ((around c).interval? a (b.x - a.x) (b.y - a.y)) :=
  (cuts_exact _ start_exact).congr fun s => and_congr_right' (sides_iff c a b s)

theorem clip_eq (box : Box Rat) (a b : Point Rat) :
    box.clip a b = (box.interval? a (b.x - a.x) (b.y - a.y)).map fun t =>
      (a.toward b t.1, a.toward b t.2) := rfl

section Clip

variable {c : Canvas} {a b p q : Point Rat}

theorem clip_eq_none_iff :
    (around c).clip a b = none ↔ ∀ p, a.Between b p → ¬ c.Near p := by
  have kept := interval?_exact c a b
  rw [clip_eq, Option.map_eq_none_iff]
  constructor
  · intro nothing
    rw [nothing] at kept
    rintro p ⟨s, between, rfl⟩ near
    exact kept s ⟨between, near⟩
  · intro outside
    cases found : (around c).interval? a (b.x - a.x) (b.y - a.y) with
    | none => rfl
    | some t =>
      rw [found] at kept
      obtain ⟨between, near⟩ := kept.ends.1
      exact absurd near (outside _ ⟨t.1, between, rfl⟩)

theorem clip_part (clipped : (around c).clip a b = some (p, q)) :
    ∃ t u, (0 ≤ t ∧ t ≤ u ∧ u ≤ 1) ∧ (p = a.toward b t ∧ q = a.toward b u) ∧
      ∀ s, (0 ≤ s ∧ s ≤ 1) ∧ c.Near (a.toward b s) ↔ t ≤ s ∧ s ≤ u := by
  have kept := interval?_exact c a b
  rw [clip_eq, Option.map_eq_some_iff] at clipped
  obtain ⟨t, found, ends⟩ := clipped
  rw [found] at kept
  obtain ⟨first, last⟩ := kept.ends
  obtain ⟨rfl, rfl⟩ := Prod.mk.inj ends
  exact ⟨t.1, t.2, ⟨first.1.1, kept.1, last.1.2⟩, ⟨rfl, rfl⟩, kept.2⟩

theorem between_clip_iff (clipped : (around c).clip a b = some (p, q)) (r : Point Rat) :
    p.Between q r ↔ a.Between b r ∧ c.Near r := by
  obtain ⟨t, u, ⟨_, ordered, _⟩, ⟨rfl, rfl⟩, inside⟩ := clip_part clipped
  rw [Point.between_toward_iff ordered]
  constructor
  · rintro ⟨s, part, rfl⟩
    obtain ⟨between, near⟩ := (inside s).mpr part
    exact ⟨⟨s, between, rfl⟩, near⟩
  · rintro ⟨⟨s, between, rfl⟩, near⟩
    exact ⟨s, (inside s).mp ⟨between, near⟩, rfl⟩

theorem clip_of_near (first : c.Near a) (last : c.Near b) :
    (around c).clip a b = some (a, b) := by
  cases clipped : (around c).clip a b with
  | none =>
    have start : a.Between b a := ⟨0, ⟨le_rfl, zero_le_one⟩, (a.toward_zero b).symm⟩
    exact absurd first (clip_eq_none_iff.mp clipped a start)
  | some ends =>
    obtain ⟨t, u, ⟨low, _, high⟩, whole, inside⟩ := clip_part clipped
    rw [← a.toward_zero b] at first
    rw [← a.toward_one b] at last
    have start := (inside 0).mp ⟨⟨le_rfl, zero_le_one⟩, first⟩
    have stop := (inside 1).mp ⟨⟨zero_le_one, le_rfl⟩, last⟩
    obtain rfl : t = 0 := le_antisymm start.1 low
    obtain rfl : u = 1 := le_antisymm high stop.2
    rw [a.toward_zero b, a.toward_one b] at whole
    exact congrArg some (Prod.ext whole.1 whole.2)

end Clip

/-- Clipping gives the two ends, in order, of just the part of a line that is near the canvas, and nothing
if there is no such part. After each cut the parameters are in order between 0 and 1. -/
theorem clip_exact (c : Canvas) (a b : Point Rat) :
    ((around c).clip a b = none ↔ ∀ p, a.Between b p → ¬ c.Near p) ∧
    (∀ p q, (around c).clip a b = some (p, q) →
      (∃ t u, (0 ≤ t ∧ t ≤ u ∧ u ≤ 1) ∧ p = a.toward b t ∧ q = a.toward b u) ∧
      ∀ r, p.Between q r ↔ a.Between b r ∧ c.Near r) ∧
    (c.Near a → c.Near b → (around c).clip a b = some (a, b)) ∧
    (∀ n t, (((around c).sides a (b.x - a.x) (b.y - a.y)).take n).foldlM cut (0, 1) = some t →
      0 ≤ t.1 ∧ t.1 ≤ t.2 ∧ t.2 ≤ 1) := by
  refine ⟨clip_eq_none_iff, fun p q clipped => ?_, clip_of_near, fun n t cuts => ?_⟩
  · obtain ⟨t, u, order, ends, _⟩ := clip_part clipped
    exact ⟨⟨t, u, order, ends⟩, between_clip_iff clipped⟩
  · have kept := cuts_exact (((around c).sides a (b.x - a.x) (b.y - a.y)).take n) start_exact
    rw [cuts] at kept
    obtain ⟨first, last⟩ := kept.ends
    exact ⟨first.1.1, kept.1, last.1.2⟩

/-- A line that touches the box at a corner leaves this point, as both ends. -/
theorem corner_clip_exact :
    (around (.blank 8 8)).clip (⟨-4, 0⟩ : Point Rat) ⟨0, -4⟩ = some (⟨-2, -2⟩, ⟨-2, -2⟩) ∧
    ∀ r : Point Rat, Point.Between ⟨-2, -2⟩ ⟨-2, -2⟩ r ↔
      Point.Between ⟨-4, 0⟩ ⟨0, -4⟩ r ∧ (Canvas.blank 8 8).Near r := by
  have touched : (around (.blank 8 8)).clip (⟨-4, 0⟩ : Point Rat) ⟨0, -4⟩ =
      some (⟨-2, -2⟩, ⟨-2, -2⟩) := by
    rw [clip_eq]
    simp only [interval?, sides, around_eq, List.foldlM_cons, List.foldlM_nil, cut_eq]
    norm_num [Point.toward, Canvas.blank, Canvas.filled]
  obtain ⟨_, part, _, _⟩ := clip_exact (.blank 8 8) ⟨-4, 0⟩ ⟨0, -4⟩
  exact ⟨touched, (part _ _ touched).2⟩

end Box

end LSystem
