import LSystem.Terminal.Cell
import LSystem.Text.Columns

/-!
A frame: the cells of a whole screen, row after row. Text is painted into one row from a column
to the right. Characters of no column are left out, a character of two columns fills two cells,
and what does not fit before the right edge is cut; half of a wide character becomes a blank.
-/

namespace LSystem.Terminal

/-- Rows of cells, all equally wide. -/
structure Frame where
  width : Nat
  height : Nat
  rows : List (List Cell)
  length_rows : rows.length = height
  length_row : ∀ row ∈ rows, row.length = width
deriving DecidableEq

/-- The cells that a text fills when `room` columns are free. -/
def layout (attrs : Attrs) : (room : Nat) → List Char → List Cell
  | _, [] => []
  | 0, _ => []
  | room + 1, c :: text =>
    match Text.columns c with
    | 0 => layout attrs (room + 1) text
    | 2 =>
      match room with
      | 0 => [⟨some ' ', attrs⟩]
      | room + 1 => ⟨some c, attrs⟩ :: .continuation attrs :: layout attrs room text
    | _ => ⟨some c, attrs⟩ :: layout attrs room text

theorem length_layout_le (attrs : Attrs) (room : Nat) (text : List Char) :
    (layout attrs room text).length ≤ room := by
  fun_induction layout attrs room text with
  | case1 => exact Nat.zero_le _
  | case2 => exact Nat.le_refl _
  | case3 => assumption
  | case4 => simp
  | case5 =>
    simp only [List.length_cons]
    omega
  | case6 =>
    simp only [List.length_cons]
    omega

/-- A row with `cells` put in from column `x`. -/
def splice (row : List Cell) (x : Nat) (cells : List Cell) : List Cell :=
  row.take x ++ cells ++ row.drop (x + cells.length)

theorem length_splice {row cells : List Cell} {x : Nat} (fits : x + cells.length ≤ row.length) :
    (splice row x cells).length = row.length := by
  simp only [splice, List.length_append, List.length_take, List.length_drop]
  omega

namespace Frame

def filled (width height : Nat) (cell : Cell) : Frame where
  width
  height
  rows := List.replicate height (List.replicate width cell)
  length_rows := List.length_replicate
  length_row _ mem := by
    rw [List.eq_of_mem_replicate mem]
    exact List.length_replicate

def blank (width height : Nat) : Frame := filled width height .empty

def clear (f : Frame) : Frame := blank f.width f.height

def resize (_f : Frame) (width height : Nat) : Frame := blank width height

/-- The cells of another frame; refused when its size is different. -/
def copyFrom? (f other : Frame) : Option Frame :=
  if f.width = other.width ∧ f.height = other.height then some other else none

def row? (f : Frame) (y : Nat) : Option (List Cell) := f.rows[y]?

def get? (f : Frame) (x y : Nat) : Option Cell := (f.row? y).bind (·[x]?)

def contains (f : Frame) (x y : Nat) : Bool := x < f.width && y < f.height

/-- Changes row `y`, keeping its width. -/
def modifyRow (f : Frame) (y : Nat) (change : List Cell → List Cell)
    (keeps : ∀ row, row.length = f.width → (change row).length = f.width) : Frame where
  width := f.width
  height := f.height
  rows := f.rows.modify y change
  length_rows := by rw [List.length_modify, f.length_rows]
  length_row row mem := by
    obtain ⟨i, inside, rfl⟩ := List.getElem_of_mem mem
    rw [List.getElem_modify]
    have old := f.length_row _ (List.getElem_mem (by simpa using inside))
    split
    · exact keeps _ old
    · exact old

/-- Overwrites the cell in column `x` of row `y`, if there is one. -/
def set (f : Frame) (x y : Nat) (cell : Cell) : Frame :=
  f.modifyRow y (·.set x cell) fun row width => by rw [List.length_set, width]

def fillRow (f : Frame) (y : Nat) (attrs : Attrs) : Frame :=
  f.modifyRow y (·.map ({ · with attrs })) fun row width => by rw [List.length_map, width]

/-- Number of columns from `x` on in row `y`. -/
def room (f : Frame) (x y : Nat) : Nat := if y < f.height then f.width - x else 0

/-- The cells that a text fills when it is painted from column `x` of row `y` on. -/
def laidOut (f : Frame) (x y : Nat) (text : String) (attrs : Attrs) : List Cell :=
  layout attrs (f.room x y) text.toList

theorem length_laidOut_le (f : Frame) (x y : Nat) (text : String) (attrs : Attrs) :
    (f.laidOut x y text attrs).length ≤ f.width - x := by
  refine Nat.le_trans (length_layout_le ..) ?_
  unfold room
  split <;> omega

/-- Paints a text from column `x` of row `y` on. -/
def paint (f : Frame) (x y : Nat) (text : String) (attrs : Attrs) : Frame :=
  let cells := f.laidOut x y text attrs
  f.modifyRow y (fun row => if x < f.width then splice row x cells else row) fun row width => by
    have fits : cells.length ≤ f.width - x := f.length_laidOut_le ..
    split
    · rw [length_splice (by omega), width]
    · exact width

/-- The characters of row `y`; nothing if there is no such row. -/
def rowText (f : Frame) (y : Nat) : String :=
  String.ofList (((f.row? y).getD []).filterMap Cell.glyph)

/-- The size of the frame, as it is shown when debugging. -/
def summary (f : Frame) : String :=
  "FrameBuffer(" ++ toString f.width ++ "x" ++ toString f.height ++ ")"

end Frame

end LSystem.Terminal
