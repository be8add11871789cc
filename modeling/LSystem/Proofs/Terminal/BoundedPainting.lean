import LSystem.Terminal.Loop

/-! Painting with numbers that machine words hold. A text is painted cell by cell here, each column and
each place in memory is computed in a word of its size, and a result that the word does not hold ends
the painting. That never happens in a frame whose sides are words themselves, and the cells are those
that are laid out at once. -/

namespace LSystem.Terminal

/-- The largest number of columns or rows. -/
def sideLimit : Nat := 65535

/-- The largest place of a cell in memory. -/
def placeLimit : Nat := 18446744073709551615

def within? (largest n : Nat) : Option Nat := if n ≤ largest then some n else none

def minus? (a b : Nat) : Option Nat := if b ≤ a then some (a - b) else none

theorem within?_of_le {largest n : Nat} (fits : n ≤ largest) : within? largest n = some n := if_pos fits

theorem minus?_of_le {a b : Nat} (fits : b ≤ a) : minus? a b = some (a - b) := if_pos fits

theorem splice_nil (row : List Cell) (x : Nat) : splice row x [] = row := by simp [splice]

theorem splice_set {row : List Cell} {x : Nat} (inside : x < row.length) (cell : Cell)
    (cells : List Cell) : splice (row.set x cell) (x + 1) cells = splice row x (cell :: cells) := by
  have front : (row.set x cell).take (x + 1) = row.take x ++ [cell] := by
    rw [List.take_add_one, List.take_set_of_le (Nat.le_refl x), List.getElem?_set_self inside]
    rfl
  have back : (row.set x cell).drop (x + 1 + cells.length) = row.drop (x + (cells.length + 1)) := by
    rw [List.drop_set_of_lt (by omega), Nat.add_assoc, Nat.add_comm 1]
  simp [splice, front, back]

namespace Frame

/-- The sides are numbers of rows and columns. -/
structure Bounded (f : Frame) : Prop where
  width : f.width ≤ sideLimit
  height : f.height ≤ sideLimit

theorem Bounded.of_size {f g : Frame} (bounded : f.Bounded) (same : g.size = f.size) : g.Bounded := by
  obtain ⟨width, height⟩ := Size.mk.inj same
  exact ⟨width ▸ bounded.width, height ▸ bounded.height⟩

/-- Overwrites a cell at its place in memory. -/
def set? (f : Frame) (x y : Nat) (cell : Cell) : Option Frame :=
  if f.contains x y then do
    let start ← within? placeLimit (y * f.width)
    let _place ← within? placeLimit (start + x)
    return f.set x y cell
  else return f

/-- Paints a text into row `y` from column `col` on. Gives the frame and the column behind the text. -/
def paintFrom? (y : Nat) (attrs : Attrs) : Frame → (col : Nat) → List Char → Option (Frame × Nat)
  | f, col, [] => some (f, col)
  | f, col, c :: text =>
    if f.width ≤ col then some (f, col)
    else match Text.columns c with
      | 0 => paintFrom? y attrs f col text
      | 2 => do
        let second ← within? sideLimit (col + 1)
        if f.width ≤ second then do
          let f ← f.set? col y ⟨some ' ', attrs⟩
          return (f, second)
        else do
          let f ← f.set? col y ⟨some c, attrs⟩
          let f ← f.set? second y (.continuation attrs)
          let behind ← within? sideLimit (col + 2)
          paintFrom? y attrs f behind text
      | _ => do
        let f ← f.set? col y ⟨some c, attrs⟩
        let behind ← within? sideLimit (col + 1)
        paintFrom? y attrs f behind text

/-- Paints a text. Gives also the number of columns that it has taken. -/
def paint? (f : Frame) (x y : Nat) (text : String) (attrs : Attrs) : Option (Frame × Nat) :=
  if f.height ≤ y then some (f, 0)
  else do
    let (painted, behind) ← paintFrom? y attrs f x text.toList
    let taken ← minus? behind x
    return (painted, taken)

def fillRow? (f : Frame) (y : Nat) (attrs : Attrs) : Option Frame :=
  if f.height ≤ y then some f
  else do
    let start ← within? placeLimit (y * f.width)
    let _stop ← within? placeLimit (start + f.width)
    return f.fillRow y attrs

theorem eq_of_rows {f g : Frame} (width : f.width = g.width) (height : f.height = g.height)
    (rows : f.rows = g.rows) : f = g := by
  cases f
  cases g
  cases width
  cases height
  cases rows
  rfl

theorem modify_of_outside {f : Frame} {y : Nat} (outside : f.height ≤ y)
    (change : List Cell → List Cell) : f.rows.modify y change = f.rows := by
  have short : f.rows.length ≤ y := by rwa [f.length_rows]
  refine List.ext_getElem? fun i => ?_
  rw [List.getElem?_modify]
  split
  · next same => simp [← same, List.getElem?_eq_none short]
  · simp

section

variable {f : Frame} {x y : Nat} {attrs : Attrs}

theorem modify_congr {change other : List Cell → List Cell}
    (same : ∀ row, row.length = f.width → change row = other row) :
    f.rows.modify y change = f.rows.modify y other := by
  refine List.ext_getElem? fun i => ?_
  simp only [List.getElem?_modify]
  cases found : f.rows[i]? with
  | none => rfl
  | some row => simp [same row (f.length_row row (List.mem_of_getElem? found))]

theorem rows_set_splice (inside : x < f.width) (cell : Cell) (cells : List Cell) :
    (f.set x y cell).rows.modify y (splice · (x + 1) cells) =
      f.rows.modify y (splice · x (cell :: cells)) := by
  change (f.rows.modify y (·.set x cell)).modify y _ = _
  rw [List.modify_modify_eq]
  exact modify_congr fun row width => splice_set (by omega) cell cells

variable (bounded : f.Bounded)
include bounded

theorem Bounded.set (cell : Cell) : (f.set x y cell).Bounded := bounded.of_size rfl

theorem Bounded.place {y : Nat} (inside : y < f.height) : y * f.width + f.width ≤ placeLimit := by
  obtain ⟨width, height⟩ := bounded
  have rows : y + 1 ≤ sideLimit := by omega
  have area : (y + 1) * f.width ≤ sideLimit * sideLimit := Nat.mul_le_mul rows width
  have fits : sideLimit * sideLimit ≤ placeLimit := by decide
  rw [Nat.succ_mul] at area
  omega

theorem set?_eq (column : x < f.width) (row : y < f.height) (cell : Cell) :
    f.set? x y cell = some (f.set x y cell) := by
  have place := bounded.place row
  have inside : f.contains x y = true := by simp [contains, column, row]
  simp [set?, inside, within?_of_le (Nat.le_trans (Nat.le_add_right _ _) place),
    within?_of_le (Nat.le_trans (Nat.add_le_add_left (Nat.le_of_lt column) _) place)]

theorem fillRow?_eq : f.fillRow? y attrs = some (f.fillRow y attrs) := by
  unfold fillRow?
  split
  · next outside =>
    refine congrArg some (eq_of_rows rfl rfl ?_)
    exact (modify_of_outside outside _).symm
  · next inside =>
    have place := bounded.place (Nat.lt_of_not_le inside)
    simp [within?_of_le (Nat.le_trans (Nat.le_add_right _ _) place), within?_of_le place]

end

/-- Frame `painted` is `f` with `cells` put into row `y` from column `x` on. -/
structure Filled (f : Frame) (x y : Nat) (cells : List Cell) (painted : Frame) : Prop where
  width : painted.width = f.width
  height : painted.height = f.height
  rows : painted.rows = f.rows.modify y (splice · x cells)

theorem filled_nil (f : Frame) (x y : Nat) : f.Filled x y [] f := by
  refine ⟨rfl, rfl, List.ext_getElem? fun i => ?_⟩
  simp [List.getElem?_modify, splice_nil]

theorem Filled.cons {f painted : Frame} {x y : Nat} {cell : Cell} {cells : List Cell}
    (filled : (f.set x y cell).Filled (x + 1) y cells painted) (inside : x < f.width) :
    f.Filled x y (cell :: cells) painted :=
  ⟨filled.width, filled.height, filled.rows.trans (rows_set_splice inside cell cells)⟩

/-- What is painted cell by cell is what is laid out in the free columns. -/
theorem paintFrom?_filled {f : Frame} {y x room : Nat} (bounded : f.Bounded)
    (row : y < f.height) (attrs : Attrs) (free : f.width - x = room) (text : List Char) :
    ∃ painted, paintFrom? y attrs f x text =
        some (painted, x + (layout attrs room text).length) ∧
      f.Filled x y (layout attrs room text) painted := by
  have sides := bounded.width
  -- Along the layout, the free columns are always those behind the current one.
  fun_induction layout attrs room text generalizing f x with
  | case1 => exact ⟨f, by simp [paintFrom?], filled_nil f x y⟩
  | case2 text some =>
    obtain ⟨c, text, rfl⟩ := List.exists_cons_of_ne_nil some
    have full : f.width ≤ x := by omega
    exact ⟨f, by simp [paintFrom?, full], filled_nil f x y⟩
  | case3 room c text none ih =>
    have first : ¬ f.width ≤ x := by omega
    obtain ⟨painted, goes, filled⟩ := ih bounded row free sides
    exact ⟨painted, by simp [paintFrom?, first, none, goes], filled⟩
  | case4 c text wide =>
    have first : x < f.width := by omega
    have second : f.width ≤ x + 1 := by omega
    refine ⟨f.set x y ⟨some ' ', attrs⟩, ?_, (filled_nil _ _ _).cons first⟩
    simp [paintFrom?, Nat.not_le.mpr first, wide, within?_of_le (show x + 1 ≤ sideLimit by omega),
      second, set?_eq bounded first row]
  | case5 c text wide room ih =>
    have first : x < f.width := by omega
    have second : x + 1 < f.width := by omega
    have later := bounded.set (x := x) (y := y) ⟨some c, attrs⟩
    obtain ⟨painted, goes, filled⟩ :=
      ih (f := (f.set x y ⟨some c, attrs⟩).set (x + 1) y (.continuation attrs))
        (x := x + 2) (later.set _) row (by change f.width - (x + 2) = room; omega) sides
    refine ⟨painted, ?_, (filled.cons second).cons first⟩
    simp [paintFrom?, Nat.not_le.mpr first, wide, within?_of_le (show x + 1 ≤ sideLimit by omega),
      Nat.not_le.mpr second, set?_eq bounded first row, set?_eq later second row,
      within?_of_le (show x + 2 ≤ sideLimit by omega), goes]
    omega
  | case6 room c text some other ih =>
    have first : x < f.width := by omega
    obtain ⟨painted, goes, filled⟩ :=
      ih (f := f.set x y ⟨Option.some c, attrs⟩) (x := x + 1) (bounded.set _) row
        (by change f.width - (x + 1) = room; omega) sides
    refine ⟨painted, ?_, filled.cons first⟩
    simp [paintFrom?, Nat.not_le.mpr first, set?_eq bounded first row,
      within?_of_le (show x + 1 ≤ sideLimit by omega), goes]
    omega

theorem Filled.eq_paint {f painted : Frame} {x y : Nat} {text : String} {attrs : Attrs}
    (row : y < f.height)
    (filled : f.Filled x y (layout attrs (f.width - x) text.toList) painted) :
    painted = f.paint x y text attrs := by
  have laid : f.laidOut x y text attrs = layout attrs (f.width - x) text.toList := by
    rw [laidOut, room, if_pos row]
  have bound := f.length_laidOut_le x y text attrs
  refine eq_of_rows filled.width filled.height (filled.rows.trans (modify_congr fun cells _ => ?_))
  rw [← laid]
  split
  · rfl
  · next outside =>
    have none : f.laidOut x y text attrs = [] := List.length_eq_zero_iff.mp (by omega)
    rw [none, splice_nil]

theorem laidOut_below {f : Frame} {y : Nat} (below : f.height ≤ y) (x : Nat) (text : String)
    (attrs : Attrs) : f.laidOut x y text attrs = [] := by
  rw [laidOut, room, if_neg (Nat.not_lt.mpr below)]
  exact List.length_eq_zero_iff.mp (Nat.le_zero.mp (length_layout_le ..))

/-- Painting does not fail, and takes as many columns as there are cells. -/
theorem paint?_eq {f : Frame} (bounded : f.Bounded) (x y : Nat) (text : String) (attrs : Attrs) :
    f.paint? x y text attrs = some (f.paint x y text attrs, (f.laidOut x y text attrs).length) := by
  unfold paint?
  split
  · next outside =>
    have none : f.laidOut x y text attrs = [] := laidOut_below outside x text attrs
    have same : f = f.paint x y text attrs :=
      eq_of_rows rfl rfl (modify_of_outside outside _).symm
    rw [← same, none]
    rfl
  · next inside =>
    have row : y < f.height := Nat.lt_of_not_le inside
    obtain ⟨painted, goes, filled⟩ := paintFrom?_filled (x := x) bounded row attrs rfl text.toList
    have taken := minus?_of_le (Nat.le_add_right x (layout attrs (f.width - x) text.toList).length)
    rw [Nat.add_sub_cancel_left] at taken
    simp [goes, taken, filled.eq_paint row, laidOut, room, row]

end Frame

end LSystem.Terminal
