import LSystem.Terminal.Frame

/-! Wide characters and the cells that they reach over stay together in a frame, whatever is done
to it, unless a text is painted from the middle of a wide character on or up to the middle of one.
Then half of the character stays behind. -/

namespace LSystem.Terminal

def Cell.isWide (cell : Cell) : Bool := cell.glyph.any (Text.columns · == 2)

/-- A wide character with attributes `attrs` stands directly in front of column `x`. -/
def WideBefore (row : List Cell) : (x : Nat) → Attrs → Prop
  | 0, _ => False
  | x + 1, attrs => ∃ cell, row[x]? = some cell ∧ cell.isWide ∧ cell.attrs = attrs

/-- Column `x` continues a character exactly if a wide one stands in front of it, and with the
attributes of that one. -/
def PairedAt (row : List Cell) (x : Nat) : Prop :=
  ∀ attrs, row[x]? = some (.continuation attrs) ↔ WideBefore row x attrs

def Paired (row : List Cell) : Prop := ∀ x, PairedAt row x

theorem paired_nil : Paired [] := by
  intro x attrs
  cases x <;> simp [WideBefore]

theorem paired_cons {cell : Cell} {row : List Cell} (own : cell.isContinuation = false)
    (next : ∀ attrs, row[0]? = some (.continuation attrs) ↔ cell.isWide ∧ cell.attrs = attrs)
    (later : ∀ x, PairedAt row (x + 1)) : Paired (cell :: row) := by
  intro x attrs
  match x with
  | 0 =>
    have head : cell ≠ .continuation attrs := by
      rintro rfl
      contradiction
    simpa [WideBefore] using head
  | 1 => simpa [WideBefore] using next attrs
  | x + 2 => exact later x attrs

theorem paired_cons_narrow {c : Char} {attrs : Attrs} {row : List Cell}
    (narrow : Text.columns c ≠ 2) (paired : Paired row) : Paired (⟨some c, attrs⟩ :: row) := by
  refine paired_cons rfl (fun k => ?_) fun x => paired (x + 1)
  have start := paired 0 k
  simpa [Cell.isWide, narrow, WideBefore] using start

theorem paired_cons_wide {c : Char} {attrs : Attrs} {row : List Cell}
    (wide : Text.columns c = 2) (paired : Paired row) :
    Paired (⟨some c, attrs⟩ :: .continuation attrs :: row) := by
  refine paired_cons rfl (fun k => ?_) fun x k => ?_
  · simp [Cell.isWide, wide, Cell.continuation]
  · cases x with
    | zero =>
      have start := paired 0 k
      simpa [Cell.isWide, WideBefore, Cell.continuation] using start
    | succ x => exact paired (x + 1) k

theorem paired_layout (attrs : Attrs) (room : Nat) (text : List Char) :
    Paired (layout attrs room text) := by
  have blank : Text.columns ' ' ≠ 2 := by decide
  fun_induction layout attrs room text with
  | case1 => exact paired_nil
  | case2 => exact paired_nil
  | case3 _ _ _ _ ih => exact ih
  | case4 => exact paired_cons_narrow blank paired_nil
  | case5 _ _ wide _ ih => exact paired_cons_wide wide ih
  | case6 _ _ _ _ other ih => exact paired_cons_narrow other ih

/-- Column `x` continues a character. -/
def Continues (row : List Cell) (x : Nat) : Prop := ∃ attrs, row[x]? = some (.continuation attrs)

theorem continues_iff {row : List Cell} {x : Nat} :
    Continues row x ↔ row[x]?.any Cell.isContinuation = true := by
  unfold Continues
  cases row[x]? with
  | none => simp
  | some cell =>
    obtain ⟨_ | c, attrs⟩ := cell
    · simp [Cell.continuation, Cell.isContinuation]
    · simp [Cell.continuation, Cell.isContinuation]

instance (row : List Cell) (x : Nat) : Decidable (Continues row x) :=
  decidable_of_iff _ continues_iff.symm

/-- Cells that are put in from column `x` on begin or end in the middle of a wide character. -/
def Cut (row : List Cell) (x : Nat) (cells : List Cell) : Prop :=
  cells ≠ [] ∧ (Continues row x ∨ Continues row (x + cells.length))

instance (row : List Cell) (x : Nat) (cells : List Cell) : Decidable (Cut row x cells) :=
  inferInstanceAs (Decidable (_ ∧ _))

section Splice

variable {row cells : List Cell} {x : Nat} (fits : x + cells.length ≤ row.length)
include fits

theorem getElem?_splice (j : Nat) : (splice row x cells)[j]? =
    if j < x then row[j]? else if j < x + cells.length then cells[j - x]? else row[j]? := by
  have width : (row.take x).length = x := List.length_take_of_le (by omega)
  rw [splice, List.append_assoc]
  split
  · next front => rw [List.getElem?_append_left (by omega), List.getElem?_take_of_lt front]
  · rw [List.getElem?_append_right (by omega), width]
    split
    · rw [List.getElem?_append_left (by omega)]
    · rw [List.getElem?_append_right (by omega), List.getElem?_drop]
      congr 1
      omega

theorem getElem?_splice_start (filled : cells ≠ []) : (splice row x cells)[x]? = cells[0]? := by
  have long := List.length_pos_iff.mpr filled
  rw [getElem?_splice fits, if_neg (by omega), if_pos (by omega), Nat.sub_self]

theorem getElem?_splice_end : (splice row x cells)[x + cells.length]? = row[x + cells.length]? := by
  rw [getElem?_splice fits, if_neg (by omega), if_neg (by omega)]

theorem wideBefore_splice_front {j : Nat} (front : j ≤ x) (attrs : Attrs) :
    WideBefore (splice row x cells) j attrs ↔ WideBefore row j attrs := by
  cases j with
  | zero => exact Iff.rfl
  | succ j => rw [WideBefore, getElem?_splice fits, if_pos (Nat.lt_of_succ_le front), WideBefore]

theorem wideBefore_splice_inside {j : Nat} (inside : j < cells.length) (attrs : Attrs) :
    WideBefore (splice row x cells) (x + (j + 1)) attrs ↔ WideBefore cells (j + 1) attrs := by
  rw [← Nat.add_assoc, WideBefore, getElem?_splice fits, if_neg (by omega), if_pos (by omega),
    Nat.add_sub_cancel_left, WideBefore]

theorem wideBefore_splice_behind {j : Nat} (behind : x + cells.length ≤ j) (attrs : Attrs) :
    WideBefore (splice row x cells) (j + 1) attrs ↔ WideBefore row (j + 1) attrs := by
  rw [WideBefore, getElem?_splice fits, if_neg (by omega), if_neg (by omega), WideBefore]

theorem not_paired_splice (paired : Paired row) (whole : Paired cells) (cut : Cut row x cells) :
    ¬ Paired (splice row x cells) := by
  intro after
  obtain ⟨filled, start | stop⟩ := cut
  · -- The wide character in front still wants the column that the first new cell has taken.
    obtain ⟨attrs, here⟩ := start
    have front := (wideBefore_splice_front fits (Nat.le_refl x) attrs).mpr ((paired x attrs).mp here)
    have first := (after x attrs).mpr front
    rw [getElem?_splice_start fits filled] at first
    exact (whole 0 attrs).mp first
  · -- The column behind is still a continuation, of what would have to be the last new cell.
    obtain ⟨attrs, here⟩ := stop
    obtain ⟨j, last⟩ : ∃ j, cells.length = j + 1 :=
      Nat.exists_eq_succ_of_ne_zero (mt List.length_eq_zero_iff.mp filled)
    have behind := (after _ attrs).mp ((getElem?_splice_end fits).trans here)
    rw [last, wideBefore_splice_inside fits (by omega), ← last] at behind
    have beyond := (whole _ attrs).mpr behind
    rw [List.getElem?_eq_none (Nat.le_refl _)] at beyond
    contradiction

theorem paired_splice (paired : Paired row) (whole : Paired cells) (clean : ¬ Cut row x cells) :
    Paired (splice row x cells) := by
  intro j attrs
  by_cases empty : cells = []
  · subst empty
    have same : splice row x [] = row := by simp [splice]
    rw [same]
    exact paired j attrs
  · have long := List.length_pos_iff.mpr empty
    have start : ¬ Continues row x := fun here => clean ⟨empty, .inl here⟩
    have stop : ¬ Continues row (x + cells.length) := fun here => clean ⟨empty, .inr here⟩
    -- Only the seams need that nothing is cut: the first new column and the one behind the last.
    rcases Nat.lt_trichotomy j x with front | rfl | inside
    · rw [wideBefore_splice_front fits (Nat.le_of_lt front), getElem?_splice fits, if_pos front]
      exact paired j attrs
    · rw [getElem?_splice_start fits empty, wideBefore_splice_front fits (Nat.le_refl j),
        ← paired j attrs, whole 0 attrs]
      exact iff_of_false id fun here => start ⟨attrs, here⟩
    · obtain ⟨i, rfl⟩ := Nat.exists_eq_add_of_lt inside
      rw [Nat.add_assoc]
      rcases Nat.lt_trichotomy (i + 1) cells.length with within | last | behind
      · rw [wideBefore_splice_inside fits (by omega), getElem?_splice fits, if_neg (by omega),
          if_pos (by omega), Nat.add_sub_cancel_left]
        exact whole (i + 1) attrs
      · rw [wideBefore_splice_inside fits (by omega), last, getElem?_splice_end fits,
          ← whole cells.length attrs, List.getElem?_eq_none (Nat.le_refl _)]
        refine iff_of_false (fun here => stop ⟨attrs, here⟩) fun beyond => ?_
        contradiction
      · rw [← Nat.add_assoc, wideBefore_splice_behind fits (by omega), getElem?_splice fits,
          if_neg (by omega), if_neg (by omega)]
        exact paired (x + i + 1) attrs

end Splice

section Restyle

variable {row : List Cell} {x : Nat} {attrs k : Attrs}

theorem continuation_restyled : (row.map ({ · with attrs }))[x]? = some (.continuation k) ↔
    k = attrs ∧ Continues row x := by
  rw [List.getElem?_map, Option.map_eq_some_iff]
  constructor
  · rintro ⟨⟨glyph, old⟩, found, same⟩
    cases same
    exact ⟨rfl, old, found⟩
  · rintro ⟨rfl, old, found⟩
    exact ⟨_, found, rfl⟩

theorem wideBefore_restyled : WideBefore (row.map ({ · with attrs })) x k ↔
    k = attrs ∧ ∃ old, WideBefore row x old := by
  cases x with
  | zero => exact iff_of_false id fun ⟨_, _, before⟩ => before
  | succ x =>
    simp only [WideBefore, List.getElem?_map, Option.map_eq_some_iff]
    constructor
    · rintro ⟨_, ⟨cell, found, rfl⟩, wide, rfl⟩
      exact ⟨rfl, cell.attrs, cell, found, wide, rfl⟩
    · rintro ⟨rfl, _, cell, found, wide, rfl⟩
      exact ⟨_, ⟨cell, found, rfl⟩, wide, rfl⟩

theorem paired_restyle (paired : Paired row) (attrs : Attrs) :
    Paired (row.map ({ · with attrs })) := by
  intro x k
  rw [continuation_restyled, wideBefore_restyled]
  exact and_congr_right fun _ => exists_congr (paired x)

end Restyle

theorem paired_blank (width : Nat) : Paired (List.replicate width .empty) := by
  have narrow : Cell.empty.isWide = false := by decide
  intro x attrs
  refine iff_of_false (fun here => ?_) fun before => ?_
  · have same := List.eq_of_mem_replicate (List.mem_of_getElem? here)
    cases same
  · cases x with
    | zero => exact before
    | succ x =>
      obtain ⟨cell, found, wide, _⟩ := before
      rw [List.eq_of_mem_replicate (List.mem_of_getElem? found), narrow] at wide
      contradiction

namespace Frame

def Paired (f : Frame) : Prop := ∀ row ∈ f.rows, Terminal.Paired row

inductive Operation where
  | paint (x y : Nat) (text : String) (attrs : Attrs)
  | fillRow (y : Nat) (attrs : Attrs)
  | clear
  | resize (width height : Nat)
  | copyFrom (source : Frame)

/-- Copying from a frame of another size is refused and changes nothing. -/
def perform (f : Frame) : Operation → Frame
  | .paint x y text attrs => f.paint x y text attrs
  | .fillRow y attrs => f.fillRow y attrs
  | .clear => f.clear
  | .resize width height => f.resize width height
  | .copyFrom source => (f.copyFrom? source).getD f

/-- The frames that come about by operations that may be done, from blank frames on. What is
copied has come about in the same way. -/
inductive Built (may : Frame → Operation → Prop) : Frame → Prop where
  | blank (width height : Nat) : Built may (.blank width height)
  | perform {f : Frame} {operation : Operation} (built : Built may f) (allowed : may f operation)
      (sources : ∀ source, operation = .copyFrom source → Built may source) :
      Built may (f.perform operation)

/-- A text is painted from the middle of a wide character on or up to the middle of one. -/
def Operation.Cuts (f : Frame) : Operation → Prop
  | .paint x y text attrs => Cut ((f.row? y).getD []) x (f.laidOut x y text attrs)
  | _ => False

instance (f : Frame) : DecidablePred (Operation.Cuts f)
  | .paint x y text attrs =>
    inferInstanceAs (Decidable (Cut ((f.row? y).getD []) x (f.laidOut x y text attrs)))
  | .fillRow .. | .clear | .resize .. | .copyFrom _ => .isFalse id

theorem length_row? {f : Frame} {y : Nat} {row : List Cell} (found : f.row? y = some row) :
    row.length = f.width :=
  f.length_row row (List.mem_of_getElem? found)

theorem Paired.row {f : Frame} (paired : f.Paired) {y : Nat} {row : List Cell}
    (found : f.row? y = some row) : Terminal.Paired row :=
  paired row (List.mem_of_getElem? found)

theorem row?_modifyRow (f : Frame) (y : Nat) (change : List Cell → List Cell)
    (keeps : ∀ row, row.length = f.width → (change row).length = f.width) (i : Nat) :
    (f.modifyRow y change keeps).row? i =
      (f.row? i).map fun row => if y = i then change row else row :=
  List.getElem?_modify ..

theorem paired_modifyRow {f : Frame} (paired : f.Paired) {y : Nat}
    {change : List Cell → List Cell}
    (keeps : ∀ row, row.length = f.width → (change row).length = f.width)
    (whole : ∀ row, f.row? y = some row → Terminal.Paired (change row)) :
    (f.modifyRow y change keeps).Paired := by
  intro row mem
  obtain ⟨i, found⟩ := List.getElem?_of_mem mem
  have parts : (f.modifyRow y change keeps).row? i = some row := found
  rw [row?_modifyRow, Option.map_eq_some_iff] at parts
  obtain ⟨old, there, rfl⟩ := parts
  by_cases same : y = i
  · subst same
    rw [if_pos rfl]
    exact whole old there
  · rw [if_neg same]
    exact paired.row there

theorem paint_paired_iff {f : Frame} (paired : f.Paired) (x y : Nat) (text : String)
    (attrs : Attrs) :
    (f.paint x y text attrs).Paired ↔ ¬ (Operation.paint x y text attrs).Cuts f := by
  have bound := f.length_laidOut_le x y text attrs
  have whole : Terminal.Paired (f.laidOut x y text attrs) := paired_layout _ _ _
  cases found : f.row? y with
  | none =>
    have clean : ¬ (Operation.paint x y text attrs).Cuts f := by
      simp [Operation.Cuts, found, Cut, Continues]
    refine iff_of_true ?_ clean
    unfold paint
    refine paired_modifyRow paired _ fun row there => ?_
    rw [found] at there
    contradiction
  | some row =>
    have width := length_row? found
    have cuts : (Operation.paint x y text attrs).Cuts f ↔ Cut row x (f.laidOut x y text attrs) := by
      rw [Operation.Cuts, found, Option.getD_some]
    rw [cuts]
    constructor
    · intro after cut
      have long := List.length_pos_iff.mpr cut.1
      have painted : (f.paint x y text attrs).row? y =
          some (splice row x (f.laidOut x y text attrs)) := by
        rw [paint, row?_modifyRow, found, Option.map_some, if_pos rfl, if_pos (by omega)]
      exact not_paired_splice (by omega) (paired.row found) whole cut (after.row painted)
    · intro clean
      unfold paint
      refine paired_modifyRow paired _ fun old there => ?_
      obtain rfl : row = old := Option.some.inj (found.symm.trans there)
      split
      · exact paired_splice (by omega) (paired.row found) whole clean
      · exact paired.row found

theorem blank_paired (width height : Nat) : (blank width height).Paired := by
  intro row mem
  rw [List.eq_of_mem_replicate mem]
  exact paired_blank width

theorem perform_paired {f : Frame} {operation : Operation} (paired : f.Paired)
    (clean : ¬ operation.Cuts f) (sources : ∀ source, operation = .copyFrom source → source.Paired) :
    (f.perform operation).Paired := by
  cases operation with
  | paint x y text attrs => exact (paint_paired_iff paired x y text attrs).mpr clean
  | fillRow y attrs =>
    change (f.fillRow y attrs).Paired
    unfold fillRow
    exact paired_modifyRow paired _ fun row found => paired_restyle (paired.row found) attrs
  | clear => exact blank_paired _ _
  | resize width height => exact blank_paired _ _
  | copyFrom source =>
    change ((f.copyFrom? source).getD f).Paired
    unfold copyFrom?
    split
    · exact sources source rfl
    · exact paired

theorem length_flatten_rows {rows : List (List Cell)} {width : Nat}
    (same : ∀ row ∈ rows, row.length = width) : rows.flatten.length = width * rows.length := by
  induction rows with
  | nil => rfl
  | cons row rows ih =>
    have rest := ih fun row mem => same row (List.mem_cons_of_mem _ mem)
    rw [List.flatten_cons, List.length_append, rest, same row List.mem_cons_self, List.length_cons,
      Nat.mul_succ, Nat.add_comm]

/-- A frame has its cells, and its wide characters are whole, as long as no text is painted from
the middle of a wide character on or up to the middle of one; and whenever that is done, half of
the character stays behind. -/
theorem built_paired {f : Frame} (built : f.Built fun f operation => ¬ operation.Cuts f) :
    f.rows.flatten.length = f.width * f.height ∧ f.Paired ∧
      ∀ x y text attrs, (Operation.paint x y text attrs).Cuts f →
        ¬ (f.paint x y text attrs).Paired := by
  have paired : f.Paired := by
    induction built with
    | blank width height => exact blank_paired width height
    | perform _ clean _ ih sources => exact perform_paired ih clean sources
  refine ⟨?_, paired, ?_⟩
  · rw [length_flatten_rows f.length_row, f.length_rows]
  · intro x y text attrs cuts after
    exact (paint_paired_iff paired x y text attrs).mp after cuts

/-- A letter painted over the second half of a wide character leaves the first. -/
theorem overpainted_half_stays :
    ¬ ∀ f : Frame, f.Built (fun _ _ => True) → f.Paired := by
  intro always
  have wide : Built (fun _ _ => True) ((blank 3 1).perform (.paint 0 0 "界" .plain)) :=
    .perform (.blank 3 1) trivial nofun
  have cut : Built (fun _ _ => True)
      (((blank 3 1).perform (.paint 0 0 "界" .plain)).perform (.paint 1 0 "x" .plain)) :=
    .perform wide trivial nofun
  have clean := (paint_paired_iff (always _ wide) 1 0 "x" .plain).mp (always _ cut)
  exact clean (by decide +kernel)

/-- A wide character in the place of another one. -/
theorem replaced_wide_paired :
    let first := (blank 4 1).perform (.paint 1 0 "界x" .bold)
    let second := first.perform (.paint 1 0 "道" .inverse)
    second.Built (fun f operation => ¬ operation.Cuts f) ∧ second.Paired := by
  intro first second
  have built : first.Built fun f operation => ¬ operation.Cuts f :=
    .perform (.blank 4 1) (by decide +kernel) nofun
  have again : second.Built fun f operation => ¬ operation.Cuts f :=
    .perform built (by decide +kernel) nofun
  exact ⟨again, (built_paired again).2.1⟩

end Frame
end LSystem.Terminal
