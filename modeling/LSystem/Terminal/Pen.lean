import LSystem.Terminal.Command

/-!
The pen writes cells to a terminal and remembers where the terminal's cursor and attributes are,
so that it sends a move or a change of attributes only where one is due.
-/

namespace LSystem.Terminal

structure Placed where
  x : Nat
  y : Nat
  cell : Cell
deriving DecidableEq, Repr

/-- What the pen knows about the terminal. -/
structure Pen where
  /-- Column and row of the last cell written, if any was. -/
  last : Option (Nat × Nat)
  attrs : Attrs
deriving DecidableEq, Repr

namespace Pen

/-- A pen that has written nothing, with no attribute on. -/
def fresh : Pen := ⟨none, .plain⟩

instance : Inhabited Pen := ⟨fresh⟩

/-- Whether a position is right behind the last cell. -/
def isNext (p : Pen) (x y : Nat) : Bool :=
  match p.last with
  | some (lastX, lastY) => x == lastX + 1 && y == lastY
  | none => false

/-- The commands from one set of attributes to another. Attributes are added one to another but
only taken away all at once. -/
def restyle (old new : Attrs) : List Command :=
  if new = old then []
  else (if old = .plain then [] else [.resetAttrs]) ++
    (if new = .plain then [] else [.addAttrs new])

/-- Writes a cell. The second half of a wide character is there already when the first has just
been written; alone it is written as a blank. -/
def write (p : Pen) (d : Placed) : Pen × List Command :=
  let here := some (d.x, d.y)
  let isNext := p.isNext d.x d.y
  if d.cell.isContinuation && isNext then ({ p with last := here }, [])
  else
    ({ last := here, attrs := d.cell.attrs },
      (if isNext then [] else [.moveTo d.x d.y]) ++ restyle p.attrs d.cell.attrs ++
        [.print (d.cell.glyph.getD ' ')])

/-- The commands that write cells one after another. -/
def writeAll (p : Pen) : List Placed → List Command
  | [] => []
  | d :: rest => (p.write d).2 ++ writeAll (p.write d).1 rest

end Pen

end LSystem.Terminal
