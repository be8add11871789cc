import LSystem.Terminal.Frame
import LSystem.Terminal.Pen

/-!
The painter brings a terminal from the frame it shows to a new one by sending the cells that
changed. It remembers the frame that was sent last. When there is none, or one of another size,
the screen is cleared and all cells are sent.
-/

namespace LSystem.Terminal

/-- The cells of a new frame that differ from an old one, and how many do not. -/
structure Changes where
  cells : List Placed
  kept : Nat
deriving DecidableEq, Repr

namespace Changes

def empty : Changes := ⟨[], 0⟩

def append (a b : Changes) : Changes := ⟨a.cells ++ b.cells, a.kept + b.kept⟩

/-- The changes of row `y` from column `x` on. A cell without an old one has changed. -/
def ofCells (y : Nat) : (x : Nat) → (old new : List Cell) → Changes
  | _, _, [] => empty
  | x, old, cell :: new =>
    let rest := ofCells y (x + 1) old.tail new
    if old.head? = some cell then { rest with kept := rest.kept + 1 }
    else { rest with cells := ⟨x, y, cell⟩ :: rest.cells }

/-- The changes of row `y`. Equal rows are not looked into. -/
def ofRow (y : Nat) (old : Option (List Cell)) (new : List Cell) : Changes :=
  if old = some new then { cells := [], kept := new.length }
  else ofCells y 0 (old.getD []) new

/-- The changes of the rows from row `y` on. -/
def ofRows : (y : Nat) → (old new : List (List Cell)) → Changes
  | _, _, [] => empty
  | y, old, row :: new => (ofRow y old.head? row).append (ofRows (y + 1) old.tail new)

/-- The changes from an old frame, if there is one, to a new frame. -/
def between (old : Option Frame) (new : Frame) : Changes :=
  ofRows 0 ((old.map Frame.rows).getD []) new.rows

end Changes

structure Tally where
  rendered : Nat
  skipped : Nat
  bytes : Nat
deriving DecidableEq, Repr

namespace Tally

def zero : Tally := ⟨0, 0, 0⟩

def total (t : Tally) : Nat := t.rendered + t.skipped

end Tally

/-- The commands that show `new` where `old` is shown. -/
def update (old : Option Frame) (new : Frame) : List Command :=
  .beginSync :: (if old.isNone then [.clearScreen, .moveTo 0 0] else []) ++
    Pen.fresh.writeAll (Changes.between old new).cells ++ [.resetAttrs, .endSync]

/-- The frame sent last, and the text that has not been taken to the terminal. -/
structure Painter where
  shown : Option Frame
  output : String

namespace Painter

def fresh : Painter := ⟨none, ""⟩

/-- The frame sent last, if it has the size of `f`. -/
def base? (p : Painter) (f : Frame) : Option Frame :=
  p.shown.filter fun shown => shown.width == f.width && shown.height == f.height

/-- Replaces the output by the update to `f`. A frame without cells needs none. -/
def render (p : Painter) (f : Frame) : Painter × Tally :=
  if f.width = 0 ∨ f.height = 0 then (⟨some f, ""⟩, .zero)
  else
    let old := p.base? f
    let changes := Changes.between old f
    let output := Command.textOfAll (update old f)
    (⟨some f, output⟩,
      { rendered := changes.cells.length, skipped := changes.kept, bytes := output.utf8ByteSize })

theorem render_shown (p : Painter) (f : Frame) : (p.render f).1.shown = some f := by
  unfold render
  split <;> rfl

/-- Forgets the frame sent last, so that the next update sends all. -/
def forget (p : Painter) : Painter := { p with shown := none }

def flush (p : Painter) : Painter × String := ({ p with output := "" }, p.output)

end Painter

end LSystem.Terminal
