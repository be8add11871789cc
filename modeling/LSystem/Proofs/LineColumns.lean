import LSystem.Stroke
import Mathlib.Data.Rat.Floor
import Mathlib.Tactic.FieldSimp
import Mathlib.Tactic.Linarith
import Mathlib.Tactic.Ring

/-! Lines in exact numbers, column by column. The height that is added up from column to column is that
of the line itself, so each column between the ends has the two dots that share its ink where the line
passes, and the columns of the ends have such dots by their part. The line may be steep, which is a flat
one with the coordinates exchanged, and it may be drawn from either end. -/

namespace LSystem.Line

section Loop

open Coordinate

variable {α : Type} [Coordinate α]

/-- The loop over the columns from `x` up to but without `stop` comes to its end with these dots. -/
inductive Scan (slope stop : α) : α → α → List (Dot α) → Prop where
  | done {x y : α} (ended : lt x stop = false) : Scan slope stop x y []
  | column {x y : α} {dots : List (Dot α)} (goes : lt x stop = true)
      (later : Scan slope stop (x + 1) (y + slope) dots) :
      Scan slope stop x y (pair x y (gap y) (fraction y) ++ dots)

/-- A loop that comes to its end does not meet a limit that is no lower. -/
theorem columns_of_scan {slope stop x y : α} {dots : List (Dot α)} (scan : Scan slope stop x y dots)
    {limit : Nat} (enough : dots.length ≤ 2 * limit) (before : List (Dot α)) :
    columns slope stop limit x y before = dots.reverse ++ before := by
  induction scan generalizing limit before with
  | done ended =>
    cases limit with
    | zero => rfl
    | succ limit => simp [columns, ended]
  | column goes _ ih =>
    cases limit with
    | zero => simp [pair] at enough
    | succ limit =>
      simp only [pair, List.length_append, List.length_cons, List.length_nil] at enough
      simp only [columns, goes, if_true]
      rw [ih (by omega)]
      simp [pair]

end Loop

section Ends

def Steep (a b : Point Rat) : Prop := |b.x - a.x| < |b.y - a.y|

instance (a b : Point Rat) : Decidable (Steep a b) := inferInstanceAs (Decidable (_ < _))

def leftToRight (a b : Point Rat) : Point Rat × Point Rat := if b.x < a.x then (b, a) else (a, b)

/-- The ends of a line from left to right, with the coordinates of a steep one exchanged. -/
def ends (a b : Point Rat) : Point Rat × Point Rat :=
  if Steep a b then leftToRight a.flip b.flip else leftToRight a b

/-- The line from `p` to `q` goes to the right and is at least as wide as high. -/
structure Runs (p q : Point Rat) : Prop where
  right : p.x ≤ q.x
  wide : |q.y - p.y| ≤ |q.x - p.x|

theorem Runs.eq_of_above {p q : Point Rat} (runs : Runs p q) (above : p.x = q.x) : p = q := by
  have wide := runs.wide
  rw [above, sub_self, abs_zero, abs_nonpos_iff, sub_eq_zero] at wide
  cases p
  cases q
  simp_all

theorem leftToRight_runs {a b : Point Rat} (wide : |b.y - a.y| ≤ |b.x - a.x|) :
    Runs (leftToRight a b).1 (leftToRight a b).2 := by
  unfold leftToRight
  split
  · next left => exact ⟨left.le, by rwa [abs_sub_comm a.x, abs_sub_comm a.y]⟩
  · next right => exact ⟨not_lt.mp right, wide⟩

theorem leftToRight_comm {a b : Point Rat} (wide : |b.y - a.y| ≤ |b.x - a.x|) :
    leftToRight b a = leftToRight a b := by
  have runs := leftToRight_runs wide
  unfold leftToRight at runs ⊢
  rcases lt_trichotomy a.x b.x with left | above | right
  · rw [if_pos left, if_neg left.not_gt]
  · -- Points above each other would not be exchanged, but these are one point.
    rw [if_neg above.not_gt] at runs
    obtain rfl : a = b := runs.eq_of_above above
    rfl
  · rw [if_neg right.not_gt, if_pos right]

theorem steep_comm (a b : Point Rat) : Steep b a ↔ Steep a b := by
  rw [Steep, Steep, abs_sub_comm a.x, abs_sub_comm a.y]

theorem ends_runs (a b : Point Rat) : Runs (ends a b).1 (ends a b).2 := by
  unfold ends
  split
  · next steep => exact leftToRight_runs steep.le
  · next flat => exact leftToRight_runs (not_lt.mp flat)

theorem ends_comm (a b : Point Rat) : ends b a = ends a b := by
  unfold ends
  by_cases steep : Steep a b
  · rw [if_pos steep, if_pos ((steep_comm a b).mpr steep)]
    exact leftToRight_comm steep.le
  · rw [if_neg steep, if_neg (mt (steep_comm a b).mp steep)]
    exact leftToRight_comm (not_lt.mp steep)

theorem abs_eq (v : Rat) : Coordinate.abs v = |v| := by
  change (if v < 0 then -v else v) = |v|
  split
  · next negative => exact (abs_of_neg negative).symm
  · next positive => exact (abs_of_nonneg (not_lt.mp positive)).symm

theorem dots_eq (a b : Point Rat) :
    dots a b = if Steep a b then (flat (ends a b).1 (ends a b).2).map Dot.flip
      else flat (ends a b).1 (ends a b).2 := by
  unfold dots ends leftToRight
  simp only [Coordinate.lt, abs_eq, decide_eq_true_eq]
  by_cases steep : |b.x - a.x| < |b.y - a.y|
  · simp only [Steep, steep, if_true]
  · simp only [Steep, steep, if_false]

theorem dots_comm (a b : Point Rat) : dots b a = dots a b := by
  simp only [dots_eq, ends_comm, steep_comm]

end Ends

section Columns

variable {p q : Point Rat}

/-- How much the line rises in a column. A single point has the slope 1. -/
def slope (p q : Point Rat) : Rat := if p.x = q.x then 1 else (q.y - p.y) / (q.x - p.x)

/-- The height at `x` of the line through `p` and `q`. -/
def height (p q : Point Rat) (x : Rat) : Rat := slope p q * (x - p.x) + p.y

/-- The column that a place belongs to. -/
def nearest (x : Rat) : Int := ⌊x + 1 / 2⌋

/-- The two dots of the line in column `X`, by a part of their weight. -/
def column (p q : Point Rat) (X : Int) (part : Rat) : List (Dot Rat) :=
  [⟨X, ⌊height p q X⌋, (1 - Int.fract (height p q X)) * part⟩,
    ⟨X, ⌊height p q X⌋ + 1, Int.fract (height p q X) * part⟩]

def wholes (p q : Point Rat) : Int → Nat → List (Dot Rat)
  | _, 0 => []
  | X, n + 1 => column p q X 1 ++ wholes p q (X + 1) n

/-- All dots, those of the ends first. -/
def inOrder (p q : Point Rat) : List (Dot Rat) :=
  column p q (nearest p.x) (1 - Int.fract (p.x + 1 / 2)) ++
    column p q (nearest q.x) (Int.fract (q.x + 1 / 2)) ++
    wholes p q (nearest p.x + 1) (nearest q.x - (nearest p.x + 1)).toNat

theorem height_left (p q : Point Rat) : height p q p.x = p.y := by simp [height]

theorem height_succ (p q : Point Rat) (x : Rat) : height p q (x + 1) = height p q x + slope p q := by
  simp only [height]
  ring

theorem Runs.height_eq (runs : Runs p q) (x : Rat) :
    height p q x = slope p q * (x - q.x) + q.y := by
  by_cases above : p.x = q.x
  · rw [runs.eq_of_above above, height]
  · have wide : q.x - p.x ≠ 0 := sub_ne_zero.mpr (Ne.symm above)
    simp only [height, slope, above, if_false]
    field_simp
    ring

theorem Runs.height_right (runs : Runs p q) : height p q q.x = q.y := by
  rw [runs.height_eq, sub_self, mul_zero, zero_add]

theorem length_wholes (p q : Point Rat) (X : Int) (n : Nat) : (wholes p q X n).length = 2 * n := by
  induction n generalizing X with
  | zero => rfl
  | succ n ih =>
    simp only [wholes, column, List.length_append, List.length_cons, List.length_nil, ih]
    omega

theorem scan_wholes (p q : Point Rat) (X stop : Int) :
    Scan (slope p q) (stop : Rat) (X : Rat) (height p q X) (wholes p q X (stop - X).toNat) := by
  generalize left : (stop - X).toNat = n
  -- On the columns that are left: in column `X` the loop has added up the height of the line there.
  induction n generalizing X with
  | zero =>
    refine .done (decide_eq_false ?_)
    rw [Int.cast_lt]
    omega
  | succ n ih =>
    have goes : (X : Rat) < stop := by
      rw [Int.cast_lt]
      omega
    have later := ih (X + 1) (by omega)
    rw [Int.cast_add, Int.cast_one, height_succ] at later
    have here : column p q X 1 =
        pair (X : Rat) (height p q X) (gap (height p q X)) (fraction (height p q X)) := by
      simp only [column, mul_one]
      rfl
    rw [wholes, here]
    exact .column (decide_eq_true goes) later

theorem slope_eq (p q : Point Rat) :
    (if Coordinate.eq (q.x - p.x) 0 then (1 : Rat) else (q.y - p.y) / (q.x - p.x)) = slope p q := by
  simp only [slope, Coordinate.eq, decide_eq_true_eq, sub_eq_zero, eq_comm (a := p.x)]

theorem toNat_sub_cast (m n : Int) : Coordinate.toNat ((m : Rat) - n) = (m - n).toNat := by
  rw [← Int.cast_sub]
  exact congrArg Int.toNat (Rat.floor_intCast _)

/-- The dots as they are computed: the height at the last column goes out from the right end, and the
heights between are added up. -/
theorem flat_eq_columns (p q : Point Rat) :
    flat p q =
      column p q (nearest p.x) (1 - Int.fract (p.x + 1 / 2)) ++
        (let y := slope p q * (nearest q.x - q.x) + q.y
         pair (nearest q.x : Rat) y (gap y * Int.fract (q.x + 1 / 2))
          (fraction y * Int.fract (q.x + 1 / 2))) ++
        (columns (slope p q) (nearest q.x : Rat) (nearest q.x - nearest p.x).toNat
          (nearest p.x + 1) (height p q (nearest p.x) + slope p q) []).reverse := by
  rw [← toNat_sub_cast, column, height, ← slope_eq]
  rfl

theorem scan_between (p q : Point Rat) :
    Scan (slope p q) (nearest q.x : Rat) (nearest p.x + 1) (height p q (nearest p.x) + slope p q)
      (wholes p q (nearest p.x + 1) (nearest q.x - (nearest p.x + 1)).toNat) := by
  have scan := scan_wholes p q (nearest p.x + 1) (nearest q.x)
  rwa [Int.cast_add, Int.cast_one, height_succ] at scan

theorem Runs.flat_eq (runs : Runs p q) : flat p q = inOrder p q := by
  rw [flat_eq_columns, ← runs.height_eq,
    columns_of_scan (scan_between p q) (by rw [length_wholes]; omega), List.append_nil,
    List.reverse_reverse]
  rfl

/-! ### The dots of one column -/

def inColumn (X : Int) (dots : List (Dot Rat)) : List (Dot Rat) := dots.filter fun d => d.x = (X : Rat)

theorem inColumn_append (X : Int) (dots more : List (Dot Rat)) :
    inColumn X (dots ++ more) = inColumn X dots ++ inColumn X more := List.filter_append ..

theorem inColumn_column (p q : Point Rat) (X Y : Int) (part : Rat) :
    inColumn Y (column p q X part) = if X = Y then column p q Y part else [] := by
  by_cases here : X = Y <;> simp [inColumn, column, here]

theorem inColumn_wholes (p q : Point Rat) (X Y : Int) (n : Nat) :
    inColumn Y (wholes p q X n) = if X ≤ Y ∧ Y < X + n then column p q Y 1 else [] := by
  induction n generalizing X with
  | zero =>
    rw [if_neg (by omega)]
    rfl
  | succ n ih =>
    rw [wholes, inColumn_append, inColumn_column, ih]
    by_cases here : X = Y
    · rw [if_pos here, if_neg (by omega), if_pos (by omega), List.append_nil]
    · rw [if_neg here, List.nil_append]
      congr 1
      rw [eq_iff_iff]
      omega

theorem inColumn_inOrder (p q : Point Rat) (X : Int) :
    inColumn X (inOrder p q) =
      (if nearest p.x = X then column p q X (1 - Int.fract (p.x + 1 / 2)) else []) ++
        (if nearest q.x = X then column p q X (Int.fract (q.x + 1 / 2)) else []) ++
        if nearest p.x < X ∧ X < nearest q.x then column p q X 1 else [] := by
  simp only [inOrder, inColumn_append, inColumn_column, inColumn_wholes]
  congr 2
  rw [eq_iff_iff]
  omega

theorem mem_column {X : Int} {part : Rat} (share : 0 ≤ part ∧ part ≤ 1) {d : Dot Rat}
    (mem : d ∈ column p q X part) : d.x = X ∧ 0 ≤ d.coverage ∧ d.coverage ≤ 1 := by
  have low := Int.fract_nonneg (height p q X)
  have high := (Int.fract_lt_one (height p q X)).le
  simp only [column, List.mem_cons, List.not_mem_nil, or_false] at mem
  rcases mem with rfl | rfl
  · exact ⟨rfl, mul_nonneg (sub_nonneg.mpr high) share.1,
      mul_le_one₀ (sub_le_self 1 low) share.1 share.2⟩
  · exact ⟨rfl, mul_nonneg low share.1, mul_le_one₀ high share.1 share.2⟩

theorem mem_wholes {X : Int} {n : Nat} {d : Dot Rat} (mem : d ∈ wholes p q X n) :
    ∃ Y : Int, (X ≤ Y ∧ Y < X + n) ∧ d ∈ column p q Y 1 := by
  induction n generalizing X with
  | zero => simp [wholes] at mem
  | succ n ih =>
    rw [wholes, List.mem_append] at mem
    rcases mem with here | later
    · exact ⟨X, by omega, here⟩
    · obtain ⟨Y, between, mem⟩ := ih later
      exact ⟨Y, by omega, mem⟩

theorem mem_inOrder (right : p.x ≤ q.x) {d : Dot Rat} (mem : d ∈ inOrder p q) :
    ∃ (X : Int) (part : Rat), (nearest p.x ≤ X ∧ X ≤ nearest q.x) ∧ (0 ≤ part ∧ part ≤ 1) ∧
      d ∈ column p q X part := by
  have ordered : nearest p.x ≤ nearest q.x := Int.floor_mono (by linarith)
  have part (x : Rat) : 0 ≤ Int.fract x ∧ Int.fract x ≤ 1 :=
    ⟨Int.fract_nonneg x, (Int.fract_lt_one x).le⟩
  rw [inOrder, List.mem_append, List.mem_append] at mem
  rcases mem with (first | last) | between
  · have rest := part (p.x + 1 / 2)
    exact ⟨_, _, ⟨le_rfl, ordered⟩, ⟨sub_nonneg.mpr rest.2, sub_le_self 1 rest.1⟩, first⟩
  · exact ⟨_, _, ⟨ordered, le_rfl⟩, part _, last⟩
  · obtain ⟨X, inside, mem⟩ := mem_wholes between
    exact ⟨X, 1, by omega, ⟨zero_le_one, le_rfl⟩, mem⟩

/-- The dots of the line through `p` and `q`, where `p` is the left end and the line is not steep. -/
structure Drawn (p q : Point Rat) (dots : List (Dot Rat)) : Prop where
  right : p.x ≤ q.x
  through : height p q p.x = p.y ∧ height p q q.x = q.y
  /-- Behind the dots of the ends come those of the loop, which comes to its end. -/
  loop : ∃ between, Scan (slope p q) (nearest q.x : Rat) (nearest p.x + 1)
      (height p q (nearest p.x) + slope p q) between ∧
    dots = column p q (nearest p.x) (1 - Int.fract (p.x + 1 / 2)) ++
      column p q (nearest q.x) (Int.fract (q.x + 1 / 2)) ++ between
  whole : ∀ X : Int, nearest p.x < X → X < nearest q.x →
    inColumn X dots = [⟨X, ⌊height p q X⌋, 1 - Int.fract (height p q X)⟩,
      ⟨X, ⌊height p q X⌋ + 1, Int.fract (height p q X)⟩]
  shared : ∀ X : Int, nearest p.x < X → X < nearest q.x →
    ((inColumn X dots).map Dot.coverage).sum = 1
  /-- The ends may share a column, which then has the dots of both. -/
  outer : ∀ X : Int, X = nearest p.x ∨ X = nearest q.x →
    inColumn X dots =
      (if nearest p.x = X then column p q X (1 - Int.fract (p.x + 1 / 2)) else []) ++
        if nearest q.x = X then column p q X (Int.fract (q.x + 1 / 2)) else []
  within : ∀ d ∈ dots, ∃ X : Int, (nearest p.x ≤ X ∧ X ≤ nearest q.x) ∧ d.x = X
  coverage : ∀ d ∈ dots, 0 ≤ d.coverage ∧ d.coverage ≤ 1

theorem Runs.drawn (runs : Runs p q) : Drawn p q (flat p q) := by
  rw [runs.flat_eq]
  have whole (X : Int) (low : nearest p.x < X) (high : X < nearest q.x) :
      inColumn X (inOrder p q) = column p q X 1 := by
    rw [inColumn_inOrder, if_neg low.ne, if_neg high.ne', if_pos ⟨low, high⟩]
    rfl
  constructor
  case right => exact runs.right
  case through => exact ⟨height_left p q, runs.height_right⟩
  case loop => exact ⟨_, scan_between p q, rfl⟩
  case whole =>
    intro X low high
    rw [whole X low high, column, mul_one, mul_one]
  case shared =>
    intro X low high
    rw [whole X low high]
    simp [column]
  case outer =>
    intro X outer
    rw [inColumn_inOrder, if_neg (c := nearest p.x < X ∧ X < nearest q.x) (by omega), List.append_nil]
  case within =>
    intro d mem
    obtain ⟨X, part, inside, share, mem⟩ := mem_inOrder runs.right mem
    exact ⟨X, inside, (mem_column share mem).1⟩
  case coverage =>
    intro d mem
    obtain ⟨X, part, _, share, mem⟩ := mem_inOrder runs.right mem
    exact (mem_column share mem).2

/-- Each line is drawn column by column along its longer axis, and in either direction alike. A canvas
is darkened by the dots and by nothing else. -/
theorem dots_drawn (a b : Point Rat) :
    (∃ dots, Drawn (ends a b).1 (ends a b).2 dots ∧
      Line.dots a b = if Steep a b then dots.map Dot.flip else dots) ∧
    Line.dots b a = Line.dots a b ∧
    ∀ c : Canvas, c.line a b = (Line.dots a b).foldl Canvas.darken c ∧ c.line b a = c.line a b := by
  refine ⟨⟨_, (ends_runs a b).drawn, dots_eq a b⟩, dots_comm a b, fun c => ⟨rfl, ?_⟩⟩
  rw [Canvas.line, dots_comm, Canvas.line]

example : ((Canvas.blank 3 5).line (⟨1, 4⟩ : Point Rat) ⟨0, 0⟩).get? 0 2 = some ⟨128, 128, 128⟩ := by
  decide +kernel

end Columns

end LSystem.Line
