import LSystem.Proofs.Terminal.BoundedPainting
import LSystem.Proofs.Terminal.Clipping
import Mathlib.Algebra.GroupWithZero.Nat

/-! What painting a text does to a frame. It takes the columns that the text counts, or those that are
left in the row. Only their cells change, they get the attributes of the text, and from left to right
they read as the text up to its first character that does not fit. -/

namespace LSystem.Terminal

def columnsOf (text : List Char) : Nat := (text.map Text.columns).sum

theorem width_eq_columnsOf (s : String) : Text.width s = columnsOf s.toList := by
  rw [Text.width, String.foldl_eq_foldl_toList, columnsOf, List.sum_eq_foldl, List.foldl_map]

/-- What can be read of a text in `room` columns. -/
inductive ReadIn : (room : Nat) → (text read : List Char) → Prop where
  | whole {room : Nat} {text : List Char} (fits : columnsOf text ≤ room) : ReadIn room text text
  /-- The room is used up by the first characters. -/
  | full (kept rest : List Char) : ReadIn (columnsOf kept) (kept ++ rest) kept
  /-- There is one column left for a wide character, and a blank is in it. -/
  | half (kept rest : List Char) {c : Char} (wide : Text.columns c = 2) :
    ReadIn (columnsOf kept + 1) (kept ++ c :: rest) (kept ++ [' '])

theorem ReadIn.cons {room : Nat} {text read : List Char} (c : Char) (reads : ReadIn room text read) :
    ReadIn (Text.columns c + room) (c :: text) (c :: read) := by
  cases reads with
  | whole fits => exact .whole (by simpa [columnsOf] using fits)
  | full _ rest => simpa [columnsOf] using ReadIn.full (c :: read) rest
  | half kept rest wide =>
    simpa [columnsOf, Nat.add_assoc] using ReadIn.half (c :: kept) rest wide

theorem columns_eq_one {c : Char} (known : Text.columns c ≤ 2) (some : Text.columns c ≠ 0)
    (narrow : Text.columns c ≠ 2) : Text.columns c = 1 := by omega

section Layout

variable (attrs : Attrs) (room : Nat) {text : List Char}
  (known : ∀ c ∈ text, Text.columns c ≤ 2)
include known

theorem length_layout : (layout attrs room text).length = min (columnsOf text) room := by
  fun_induction layout attrs room text with
  | case1 => simp [columnsOf]
  | case2 => simp
  | case3 room c text none ih =>
    simpa [columnsOf, none] using ih fun d mem => known d (List.mem_cons_of_mem c mem)
  | case4 c text wide =>
    simp only [columnsOf, List.length_singleton, List.map_cons, List.sum_cons, wide]
    omega
  | case5 c text wide room ih =>
    have rest := ih fun d mem => known d (List.mem_cons_of_mem c mem)
    simp only [columnsOf, List.length_cons, List.map_cons, List.sum_cons, wide] at rest ⊢
    omega
  | case6 room c text some narrow ih =>
    have rest := ih fun d mem => known d (List.mem_cons_of_mem c mem)
    have single := columns_eq_one (known c List.mem_cons_self) some narrow
    simp only [columnsOf, List.length_cons, List.map_cons, List.sum_cons, single] at rest ⊢
    omega

theorem layout_readIn : ReadIn room (text.filter (Text.columns · ≠ 0))
    ((layout attrs room text).filterMap Cell.glyph) := by
  fun_induction layout attrs room text with
  | case1 => exact .whole (Nat.zero_le _)
  | case2 text => exact .full [] _
  | case3 room c text none ih =>
    simpa [none] using ih fun d mem => known d (List.mem_cons_of_mem c mem)
  | case4 c text wide => simpa [wide, columnsOf] using ReadIn.half [] _ wide
  | case5 c text wide room ih =>
    have rest := ih fun d mem => known d (List.mem_cons_of_mem c mem)
    have next := rest.cons c
    rw [wide, Nat.add_comm] at next
    simpa [wide, Cell.continuation] using next
  | case6 room c text some narrow ih =>
    have rest := ih fun d mem => known d (List.mem_cons_of_mem c mem)
    have single := columns_eq_one (known c List.mem_cons_self) some narrow
    have next := rest.cons c
    rw [single, Nat.add_comm] at next
    simpa [single] using next

end Layout

namespace Frame

/-- The characters in `n` columns of row `y` from column `x` on. -/
def readFrom (f : Frame) (x y n : Nat) : List Char :=
  (List.range' x n).filterMap fun i => (f.get? i y).bind Cell.glyph

variable {f : Frame} {x y : Nat} {text : String} {attrs : Attrs}

theorem laidOut_fits (some : f.laidOut x y text attrs ≠ []) :
    x + (f.laidOut x y text attrs).length ≤ f.width := by
  have bound := f.length_laidOut_le x y text attrs
  have long := List.length_pos_iff.mpr some
  omega

theorem row?_paint_self : (f.paint x y text attrs).row? y =
    (f.row? y).map (splice · x (f.laidOut x y text attrs)) := by
  rw [paint, row?_modifyRow]
  refine Option.map_congr fun row _ => ?_
  rw [if_pos rfl]
  split
  · rfl
  · next outside =>
    have none : f.laidOut x y text attrs = [] := by
      refine Decidable.by_contra fun some => outside ?_
      have fits := laidOut_fits some
      have long := List.length_pos_iff.mpr some
      omega
    rw [none, splice_nil]

theorem get?_paint (i j : Nat) : (f.paint x y text attrs).get? i j =
    if j = y ∧ x ≤ i ∧ i < x + (f.laidOut x y text attrs).length then
      (f.laidOut x y text attrs)[i - x]?
    else f.get? i j := by
  by_cases same : j = y
  · subst same
    rw [get?, row?_paint_self, get?]
    by_cases empty : f.laidOut x j text attrs = []
    · have outside : ¬ (j = j ∧ x ≤ i ∧ i < x + ([] : List Cell).length) := fun here =>
        absurd here.2.1 (Nat.not_le.mpr here.2.2)
      rw [empty, if_neg outside]
      simp [splice_nil]
    · have fits := laidOut_fits empty
      cases found : f.row? j with
      | none =>
        have below : f.height ≤ j := by
          rw [← f.length_rows]
          exact List.getElem?_eq_none_iff.mp found
        exact absurd (laidOut_below below x text attrs) empty
      | some row =>
        have width := length_row? found
        simp only [Option.map_some, Option.bind_some, getElem?_splice (width.symm ▸ fits),
          true_and]
        by_cases left : i < x
        · rw [if_pos left, if_neg fun here => Nat.not_le.mpr left here.1]
        · simp only [if_neg left, Nat.le_of_not_lt left, true_and]
  · rw [get?, row?_paint_other same, get?, if_neg fun here => same here.1]

theorem readFrom_paint : (f.paint x y text attrs).readFrom x y (f.laidOut x y text attrs).length =
    (f.laidOut x y text attrs).filterMap Cell.glyph := by
  generalize cells : f.laidOut x y text attrs = cs
  have columns : (List.range' x cs.length).map ((f.paint x y text attrs).get? · y) = cs.map some := by
    refine List.ext_getElem (by simp) fun k _ inside => ?_
    have here : k < cs.length := by simpa using inside
    simp [get?_paint, cells, here]
  have read := congrArg (List.filterMap (·.bind Cell.glyph)) columns
  rw [List.filterMap_map, List.filterMap_map] at read
  exact read

theorem length_laidOut (known : ∀ c ∈ text.toList, Text.columns c ≤ 2) :
    (f.laidOut x y text attrs).length =
      if y < f.height then min (Text.width text) (f.width - x) else 0 := by
  rw [laidOut, length_layout attrs _ known, width_eq_columnsOf, room]
  split
  · rfl
  · exact Nat.min_zero _

/-- Painting a text does not fail and takes the columns that there are for it. Only these change, they
have its attributes, and its characters are read in them. -/
theorem paint?_reads {f : Frame} (bounded : f.Bounded) (x y : Nat) (text : String) (attrs : Attrs)
    (known : ∀ c ∈ text.toList, Text.columns c ≤ 2) :
    ∃ painted taken, f.paint? x y text attrs = some (painted, taken) ∧ painted.size = f.size ∧
      taken = (if y < f.height then min (Text.width text) (f.width - x) else 0) ∧
      (∀ i j, ¬ (j = y ∧ x ≤ i ∧ i < x + taken) → painted.get? i j = f.get? i j) ∧
      (∀ i, x ≤ i → i < x + taken → ∃ glyph, painted.get? i y = some ⟨glyph, attrs⟩) ∧
      ReadIn (f.room x y) (text.toList.filter (Text.columns · ≠ 0)) (painted.readFrom x y taken) := by
  refine ⟨_, _, paint?_eq bounded x y text attrs, rfl, length_laidOut known, fun i j outside => ?_,
    fun i right left => ?_, ?_⟩
  · rw [get?_paint, if_neg outside]
  · have inside : i - x < (f.laidOut x y text attrs).length := by omega
    obtain ⟨cell, here⟩ : ∃ cell, (f.laidOut x y text attrs)[i - x]? = some cell :=
      ⟨_, List.getElem?_eq_getElem inside⟩
    have own := attrs_layout attrs _ text.toList cell (List.mem_of_getElem? here)
    refine ⟨cell.glyph, ?_⟩
    rw [get?_paint, if_pos ⟨rfl, right, left⟩, here, ← own]
  · rw [readFrom_paint]
    exact layout_readIn attrs _ known

/-- A mark that takes no column, and a wide character with half of its room. -/
theorem cut_paint?_reads :
    (blank 5 1).Bounded ∧ (∀ c ∈ "e\u0301界界".toList, Text.columns c ≤ 2) ∧
    ∃ painted, (blank 5 1).paint? 1 0 "e\u0301界界" .bold = some (painted, 4) ∧
      (∃ glyph, painted.get? 4 0 = some ⟨glyph, .bold⟩) ∧
      ReadIn 4 ['e', '界', '界'] (painted.readFrom 1 0 4) := by
  have bounded : (blank 5 1).Bounded := ⟨by decide, by decide⟩
  have all : "e\u0301界界".toList.all (Text.columns · ≤ 2) = true := by decide +kernel
  have known : ∀ c ∈ "e\u0301界界".toList, Text.columns c ≤ 2 := fun c mem =>
    of_decide_eq_true (List.all_eq_true.mp all c mem)
  obtain ⟨painted, taken, paints, _, count, _, own, reads⟩ :=
    paint?_reads bounded 1 0 "e\u0301界界" .bold known
  rw [width_eq_columnsOf] at count
  obtain rfl : taken = 4 := count.trans (by decide +kernel)
  have visible : "e\u0301界界".toList.filter (Text.columns · ≠ 0) = ['e', '界', '界'] := by
    decide +kernel
  rw [visible] at reads
  exact ⟨bounded, known, painted, paints, own 4 (by decide) (by decide), reads⟩

end Frame

end LSystem.Terminal
