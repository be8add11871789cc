import LSystem.Proofs.Terminal.Overpainting
import LSystem.Proofs.Terminal.Repaint
import Mathlib.Algebra.GroupWithZero.Nat

/-! What the painter sends and counts. After any calls an update is made up of the cells that differ
from the frame rendered last, or of all cells on a cleared screen if there is no such frame of the same
size. Equal rows are passed over, which is as good as a look into each of their cells. -/

namespace LSystem.Terminal

namespace Changes

/-- The changes of the rows from row `y` on. Every row is looked into. -/
def cellwise : (y : Nat) → (old new : List (List Cell)) → Changes
  | _, _, [] => empty
  | y, old, row :: new =>
    (ofCells y 0 (old.head?.getD []) row).append (cellwise (y + 1) old.tail new)

theorem ofCells_self (y x : Nat) (row : List Cell) : ofCells y x row row = ⟨[], row.length⟩ := by
  induction row generalizing x with
  | nil => rfl
  | cons cell row ih => simp [ofCells, ih]

theorem ofRow_eq_ofCells (y : Nat) (old : Option (List Cell)) (new : List Cell) :
    ofRow y old new = ofCells y 0 (old.getD []) new := by
  unfold ofRow
  split
  · next same => rw [same, Option.getD_some, ofCells_self]
  · rfl

theorem ofRows_eq_cellwise (y : Nat) (old new : List (List Cell)) :
    ofRows y old new = cellwise y old new := by
  induction new generalizing y old with
  | nil => rfl
  | cons row new ih => rw [ofRows, cellwise, ofRow_eq_ofCells, ih]

/-- The number of columns of `new` whose cell is not the one of `old`. -/
def differing (old new : List Cell) : Nat :=
  (List.range new.length).countP fun x => old[x]? ≠ new[x]?

theorem differing_cons (old : List Cell) (cell : Cell) (new : List Cell) :
    differing old (cell :: new) =
      differing old.tail new + if old.head? = some cell then 0 else 1 := by
  have rest (x : Nat) : old.tail[x]? = old[x + 1]? := List.getElem?_tail
  simp only [differing, List.length_cons, List.range_succ_eq_map, List.countP_cons, List.countP_map,
    List.head?_eq_getElem?, rest]
  congr 1
  simp

theorem ofCells_counts (y x : Nat) (old new : List Cell) :
    (ofCells y x old new).cells.length = differing old new ∧
      (ofCells y x old new).cells.length + (ofCells y x old new).kept = new.length := by
  induction new generalizing x old with
  | nil => exact ⟨rfl, rfl⟩
  | cons cell new ih =>
    obtain ⟨changed, all⟩ := ih (x + 1) old.tail
    rw [ofCells, differing_cons, List.length_cons]
    split
    · exact ⟨changed, by rw [← all]; rfl⟩
    · refine ⟨congrArg Nat.succ changed, ?_⟩
      rw [← all]
      exact Nat.succ_add ..

theorem cellwise_counts (y : Nat) (old new : List (List Cell)) :
    (cellwise y old new).cells.length =
        ((List.range new.length).map fun i => differing (rowAt old i) (rowAt new i)).sum ∧
      (cellwise y old new).cells.length + (cellwise y old new).kept = (new.map List.length).sum := by
  induction new generalizing y old with
  | nil => exact ⟨rfl, rfl⟩
  | cons row new ih =>
    obtain ⟨changed, all⟩ := ih (y + 1) old.tail
    obtain ⟨first, own⟩ := ofCells_counts y 0 (old.head?.getD []) row
    simp only [cellwise, append, List.length_append]
    refine ⟨?_, ?_⟩
    · rw [first, changed, List.length_cons, List.range_succ_eq_map, List.map_cons, List.sum_cons,
        List.map_map, List.head?_eq_getElem?]
      simp only [rowAt_tail]
      rfl
    · rw [List.map_cons, List.sum_cons, ← own, ← all]
      omega

end Changes

namespace Frame

/-- The positions of a frame, row after row. -/
def positions (f : Frame) : List (Nat × Nat) :=
  (List.range f.height).flatMap fun y => (List.range f.width).map fun x => (x, y)

/-- The number of positions at which another frame has another cell. -/
def differences (f g : Frame) : Nat := f.positions.countP fun p => g.get? p.1 p.2 ≠ f.get? p.1 p.2

theorem get?_eq_rowAt (f : Frame) (x y : Nat) : f.get? x y = (rowAt f.rows y)[x]? := by
  rw [get?, row?, rowAt]
  cases f.rows[y]? with
  | none => rfl
  | some row => rfl

theorem length_positions (f : Frame) : f.positions.length = f.width * f.height := by
  simp [positions, List.length_flatMap, List.map_const', Nat.mul_comm]

theorem get?_of_mem_positions {f : Frame} {p : Nat × Nat} (mem : p ∈ f.positions) :
    f.get? p.1 p.2 ≠ none := by
  obtain ⟨y, row, inside⟩ := List.mem_flatMap.mp mem
  obtain ⟨x, column, rfl⟩ := List.mem_map.mp inside
  have width := Display.length_rowAt f y
  rw [if_pos (List.mem_range.mp row)] at width
  rw [get?_eq_rowAt, Ne, List.getElem?_eq_none_iff, width]
  exact Nat.not_le.mpr (List.mem_range.mp column)

theorem countP_positions (f : Frame) (old : List (List Cell)) :
    f.positions.countP (fun p => (rowAt old p.2)[p.1]? ≠ f.get? p.1 p.2) =
      ((List.range f.rows.length).map fun y =>
        Changes.differing (rowAt old y) (rowAt f.rows y)).sum := by
  rw [positions, List.countP_flatMap, f.length_rows]
  refine congrArg List.sum (List.map_congr_left fun y mem => ?_)
  have width := Display.length_rowAt f y
  rw [if_pos (List.mem_range.mp mem)] at width
  rw [Function.comp_apply, List.countP_map, Changes.differing, width]
  refine List.countP_congr fun x _ => ?_
  simp only [Function.comp_apply, get?_eq_rowAt]

end Frame

namespace Changes

variable (old : Option Frame) (f : Frame)

theorem between_eq_cellwise :
    between old f = cellwise 0 ((old.map Frame.rows).getD []) f.rows := ofRows_eq_cellwise ..

theorem length_between : (between old f).cells.length =
    old.elim (f.width * f.height) f.differences := by
  rw [between_eq_cellwise, (cellwise_counts ..).1, ← f.countP_positions]
  cases old with
  | none =>
    rw [Option.elim_none, ← f.length_positions]
    refine List.countP_eq_length.mpr fun p mem => ?_
    have bare : rowAt ((Option.none.map Frame.rows).getD []) p.2 = [] := rfl
    rw [bare, decide_eq_true_eq, List.getElem?_nil]
    exact (Frame.get?_of_mem_positions mem).symm
  | some g => simp [Frame.differences, Frame.get?_eq_rowAt]

theorem between_total : (between old f).cells.length + (between old f).kept =
    f.width * f.height := by
  rw [between_eq_cellwise, (cellwise_counts ..).2, ← List.length_flatten,
    Frame.length_flatten_rows f.length_row, f.length_rows]

end Changes

/-- The commands that show the given cells, on a cleared screen or on the old one. -/
def updateCells (cleared : Bool) (cells : List Placed) : List Command :=
  .beginSync :: (if cleared then [.clearScreen, .moveTo 0 0] else []) ++
    Pen.fresh.writeAll cells ++ [.resetAttrs, .endSync]

theorem Pen.clearScreen_notMem_write (p : Pen) (d : Placed) : .clearScreen ∉ (p.write d).2 := by
  simp only [write, restyle]
  split
  · simp
  · repeat' split
    all_goals simp

theorem Pen.clearScreen_notMem_writeAll (p : Pen) (cells : List Placed) :
    .clearScreen ∉ p.writeAll cells := by
  induction cells generalizing p with
  | nil => simp [writeAll]
  | cons d cells ih =>
    rw [writeAll, List.mem_append, not_or]
    exact ⟨p.clearScreen_notMem_write d, ih _⟩

theorem clearScreen_mem_updateCells (cleared : Bool) (cells : List Placed) :
    .clearScreen ∈ updateCells cleared cells ↔ cleared = true := by
  have pen := Pen.fresh.clearScreen_notMem_writeAll cells
  cases cleared with
  | false => simp [updateCells, pen]
  | true => simp [updateCells]

/-- The pen has no place at first, so it begins with a move, unless there is nothing to write. -/
theorem Pen.writeAll_fresh (cells : List Placed) :
    Pen.fresh.writeAll cells = [] ∨ ∃ x y rest, Pen.fresh.writeAll cells = .moveTo x y :: rest := by
  cases cells with
  | nil => exact .inl rfl
  | cons d cells =>
    refine .inr ⟨d.x, d.y, ?_⟩
    simp [writeAll, write, isNext, fresh]

/-- Behind a digit, what moves the cursor has another digit or a semicolon. -/
theorem not_clearScreen_prefix_moveTo (x y : Nat) (rest : List Char) :
    ¬ Command.clearScreen.text.toList <+: (Command.moveTo x y).text.toList ++ rest := by
  have text : (Command.moveTo x y).text.toList ++ rest = Command.introducer.toList ++
      (Nat.toDigits 10 (y + 1) ++ ';' :: (Nat.toDigits 10 (x + 1) ++ 'H' :: rest)) := by
    simp [Command.text]
  have clear : Command.clearScreen.text.toList = Command.introducer.toList ++ ['2', 'J'] := rfl
  have digit : ∀ c ∈ Nat.toDigits 10 (y + 1), c.isDigit := fun c => Display.isDigit_of_mem_digits
  rw [text, clear, List.prefix_append_right_inj]
  generalize Nat.toDigits 10 (y + 1) = digits at digit
  intro begins
  rcases digits with _ | ⟨first, _ | ⟨second, digits⟩⟩
  · simp at begins
  · simp at begins
  · have same : '2' = first ∧ 'J' = second := by simpa using begins
    have letter := digit second (by simp)
    rw [← same.2] at letter
    contradiction

/-- The opening of an update tells whether the screen is cleared. -/
theorem clearScreen_prefix_updateCells (cleared : Bool) (cells : List Placed) :
    (Command.textOfAll [.beginSync, .clearScreen]).toList <+:
      (Command.textOfAll (updateCells cleared cells)).toList ↔ cleared = true := by
  simp only [Display.toList_textOfAll, updateCells, List.flatMap_cons, List.cons_append,
    List.prefix_append_right_inj, List.flatMap_append, List.flatMap_nil, List.append_nil]
  cases cleared with
  | true => simp
  | false =>
    refine iff_of_false ?_ Bool.false_ne_true
    rcases Pen.writeAll_fresh cells with none | ⟨x, y, rest, moves⟩
    · rw [none]
      decide
    · simp only [moves, Bool.false_eq_true, if_false, List.flatMap_nil, List.nil_append,
        List.flatMap_cons, List.append_assoc]
      exact not_clearScreen_prefix_moveTo x y _

theorem length_encode (s : String) : (Text.Utf8.encode s.toList).length = s.utf8ByteSize := by
  rw [String.utf8ByteSize, ← String.utf8Encode_toList, List.utf8Encode, List.size_toByteArray]
  rfl

namespace Painter

/-- The painter after a call. -/
def Call.after (p : Painter) : Call → Painter
  | render f => (p.render f).1
  | forget => p.forget

/-- The painter after calls from the beginning. -/
def afterAll (calls : List Call) : Painter := calls.foldl Call.after fresh

def Call.frame? : Call → Option Frame
  | render f => some f
  | forget => none

/-- The frame of the last call, if that was one to render and its frame has the size of `f`. -/
def previous? (calls : List Call) (f : Frame) : Option Frame :=
  (calls.getLast?.bind Call.frame?).filter fun g => g.width = f.width ∧ g.height = f.height

/-- Like `render`, but each cell is looked at. -/
def renderCellwise (p : Painter) (f : Frame) : Painter × Tally :=
  if f.width = 0 ∨ f.height = 0 then (⟨some f, ""⟩, .zero)
  else
    let old := p.base? f
    let changes := Changes.cellwise 0 ((old.map Frame.rows).getD []) f.rows
    let output := Command.textOfAll (updateCells old.isNone changes.cells)
    (⟨some f, output⟩,
      { rendered := changes.cells.length, skipped := changes.kept, bytes := output.utf8ByteSize })

theorem render_eq_cellwise (p : Painter) (f : Frame) : p.render f = p.renderCellwise f := by
  unfold render renderCellwise
  split
  · rfl
  · simp only [← Changes.between_eq_cellwise]
    rfl

theorem shown_afterAll (calls : List Call) :
    (afterAll calls).shown = calls.getLast?.bind Call.frame? := by
  rcases List.eq_nil_or_concat calls with rfl | ⟨calls, call, rfl⟩
  · rfl
  · rw [afterAll, List.concat_eq_append, List.foldl_append, List.getLast?_concat]
    cases call with
    | render f => exact render_shown _ f
    | forget => rfl

theorem base?_afterAll (calls : List Call) (f : Frame) :
    (afterAll calls).base? f = previous? calls f := by
  rw [base?, previous?, shown_afterAll]
  refine congrArg (Option.filter · _) (funext fun g => ?_)
  rw [Bool.eq_iff_iff]
  simp

theorem render_afterAll (calls : List Call) {f : Frame} (cells : f.width ≠ 0 ∧ f.height ≠ 0) :
    let changes := Changes.between (previous? calls f) f
    let output := Command.textOfAll (update (previous? calls f) f)
    (afterAll calls).render f =
      (⟨some f, output⟩, ⟨changes.cells.length, changes.kept, output.utf8ByteSize⟩) := by
  intro changes output
  rw [render, if_neg (not_or.mpr cells), base?_afterAll]

/-- After any calls an update shows and counts the cells that differ from the frame rendered last, or all
cells if there is none of the same size, and only then it clears the screen. What it counts and sends
does not depend on rows being passed over. -/
theorem render_after_calls (calls : List Call) (f : Frame) (cells : f.width ≠ 0 ∧ f.height ≠ 0) :
    let p := afterAll calls
    let previous := previous? calls f
    let commands := update previous f
    let output := (p.render f).1.output
    let tally := (p.render f).2
    tally.rendered + tally.skipped = f.width * f.height ∧
    tally.rendered = previous.elim (f.width * f.height) f.differences ∧
    p.render f = p.renderCellwise f ∧
    output = Command.textOfAll commands ∧
    (.clearScreen ∈ commands ↔ previous = none) ∧
    ((Command.textOfAll [.beginSync, .clearScreen]).toList <+: output.toList ↔ previous = none) ∧
    tally.bytes = (Text.Utf8.encode output.toList).length := by
  intro p previous commands output tally
  obtain ⟨painter, counts⟩ := Prod.mk.inj (render_afterAll calls cells)
  have sent : output = Command.textOfAll commands := congrArg Painter.output painter
  have parts : commands = updateCells previous.isNone (Changes.between previous f).cells := rfl
  refine ⟨?_, ?_, render_eq_cellwise p f, sent, ?_, ?_, ?_⟩
  · exact (congrArg Tally.total counts).trans (Changes.between_total previous f)
  · exact (congrArg Tally.rendered counts).trans (Changes.length_between previous f)
  · rw [parts, clearScreen_mem_updateCells, Option.isNone_iff_eq_none]
  · rw [sent, parts, clearScreen_prefix_updateCells, Option.isNone_iff_eq_none]
  · rw [length_encode, sent]
    exact congrArg Tally.bytes counts

/-- One cell changes, and then all are to be shown again. -/
theorem changed_cell_render_after_calls :
    let f := (Frame.blank 3 1).set 1 0 ⟨some 'x', .bold⟩
    let change := (afterAll [.forget, .render (.blank 3 1)]).render f
    let again := (afterAll [.render f, .forget]).render f
    (f.width ≠ 0 ∧ f.height ≠ 0) ∧ change.2.rendered = 1 ∧ change.2.skipped = 2 ∧
    again.2.rendered = 3 ∧
    (Command.textOfAll [.beginSync, .clearScreen]).toList <+: again.1.output.toList := by
  intro f change again
  have cells : f.width ≠ 0 ∧ f.height ≠ 0 := by decide
  obtain ⟨all, changed, _⟩ := render_after_calls [.forget, .render (.blank 3 1)] f cells
  obtain ⟨_, shown, _, _, _, opens, _⟩ := render_after_calls [.render f, .forget] f cells
  have one : change.2.rendered = 1 := changed.trans (by decide +kernel)
  have rest : change.2.rendered + change.2.skipped = 3 := all
  exact ⟨cells, one, by omega, shown, opens.mpr rfl⟩

end Painter

end LSystem.Terminal
