import LSystem.Canvas
import LSystem.Coordinate

/-!
Strokes: anti-aliased lines of one pixel's width that darken a canvas.

A stroke is stretched horizontally, clipped to a box around the canvas, and described as a list
of dots. In each column of a flat line two dots share a coverage of one, in proportion to how
near the line passes; a steep line is a flat one with the coordinates exchanged. A dot multiplies
the pixel below it by what it leaves uncovered, so that strokes only darken.
-/

namespace LSystem

open Coordinate

variable {α : Type} [Coordinate α]

/-- An axis-parallel box, sides included. -/
structure Box (α : Type) where
  left : α
  top : α
  right : α
  bottom : α

namespace Box

/-- The canvas and two pixels on each side, so that the fringe of a line outside still lands. -/
def around (c : Canvas) : Box α where
  left := -2
  top := -2
  right := ofNat c.width + 2
  bottom := ofNat c.height + 2

/-- Cuts the interval `t` of line parameters at one side. Beyond the side `p * t > q`; a line
with `p = 0` runs parallel to it. -/
def cut (t : α × α) (side : α × α) : Option (α × α) :=
  let (p, q) := side
  if eq p 0 then if lt q 0 then none else some t
  else
    let r := q / p
    if lt p 0 then
      if lt t.2 r then none else some (if lt t.1 r then r else t.1, t.2)
    else
      if lt r t.1 then none else some (t.1, if lt r t.2 then r else t.2)

/-- The four sides as seen from `a` in the direction `(dx, dy)`. -/
def sides (box : Box α) (a : Point α) (dx dy : α) : List (α × α) :=
  [(-dx, a.x - box.left), (dx, box.right - a.x), (-dy, a.y - box.top), (dy, box.bottom - a.y)]

/-- The parameters between which the line from `a` in the direction `(dx, dy)` is inside. -/
def interval? (box : Box α) (a : Point α) (dx dy : α) : Option (α × α) :=
  (box.sides a dx dy).foldlM cut (0, 1)

/-- The part of the line from `a` to `b` inside the box. A line without finite ends has none. -/
def clip (box : Box α) (a b : Point α) : Option (Point α × Point α) :=
  if isFinite a.x && isFinite a.y && isFinite b.x && isFinite b.y then
    let dx := b.x - a.x
    let dy := b.y - a.y
    let along (t : α) : Point α := ⟨mulAdd dx t a.x, mulAdd dy t a.y⟩
    (box.interval? a dx dy).map fun t => (along t.1, along t.2)
  else none

end Box

/-- A share of ink at a grid position. -/
structure Dot (α : Type) where
  x : α
  y : α
  coverage : α

def Dot.flip (d : Dot α) : Dot α := { d with x := d.y, y := d.x }

namespace Line

def fraction (v : α) : α := v - floor v

/-- What is missing to the next integer. -/
def gap (v : α) : α := 1 - fraction v

/-- The two dots of column `x` for a line at height `y`, both weighted. -/
def pair (x y : α) (upper lower : α) : List (Dot α) :=
  [⟨x, floor y, upper⟩, ⟨x, floor y + 1, lower⟩]

/-- The dots of the columns from `x` up to but without `stop`, at most `n` columns, last first
and in front of `dots`. The line is at height `y` and rises by `slope` in each column. -/
def columns (slope stop : α) : Nat → α → α → List (Dot α) → List (Dot α)
  | 0, _, _, dots => dots
  | n + 1, x, y, dots =>
    if lt x stop then
      columns slope stop n (x + 1) (y + slope)
        (⟨x, floor y + 1, fraction y⟩ :: ⟨x, floor y, gap y⟩ :: dots)
    else dots

/-- The dots of a line that is at least as wide as high and runs from left to right: those of
the two ends, each weighted by its share of its column, and those of the columns between. -/
def flat (a b : Point α) : List (Dot α) :=
  let dx := b.x - a.x
  let dy := b.y - a.y
  let slope : α := if eq dx 0 then 1 else dy / dx
  let firstX := floor (a.x + half)
  let firstY := mulAdd slope (firstX - a.x) a.y
  let firstShare := gap (a.x + half)
  let lastX := floor (b.x + half)
  let lastY := mulAdd slope (lastX - b.x) b.y
  let lastShare := fraction (b.x + half)
  pair firstX firstY (gap firstY * firstShare) (fraction firstY * firstShare) ++
    pair lastX lastY (gap lastY * lastShare) (fraction lastY * lastShare) ++
    (columns slope lastX (toNat (lastX - firstX)) (firstX + 1) (firstY + slope) []).reverse

def dots (a b : Point α) : List (Dot α) :=
  let steep := lt (abs (b.x - a.x)) (abs (b.y - a.y))
  let (a, b) := if steep then (a.flip, b.flip) else (a, b)
  let (a, b) := if lt b.x a.x then (b, a) else (a, b)
  if steep then (flat a b).map Dot.flip else flat a b

end Line

namespace Canvas

/-- Lets a dot darken the pixel that it lies on. Coverage above one counts as one. -/
def darken (c : Canvas) (d : Dot α) : Canvas :=
  if le d.coverage 0 || lt d.x 0 || lt d.y 0 then c
  else
    let keep : α := 1 - if lt d.coverage 1 then d.coverage else 1
    c.modify (toNat d.x) (toNat d.y) (·.map (fade · keep))

/-- Draws the line from `a` to `b`; dots outside the canvas are lost. -/
def line (c : Canvas) (a b : Point α) : Canvas := (Line.dots a b).foldl darken c

/-- Draws a stroke whose horizontal coordinates are stretched first. -/
def stroke (stretch : α) (c : Canvas) (s : Segment α) : Canvas :=
  let widen (p : Point α) : Point α := { p with x := p.x * stretch }
  match (Box.around c).clip (widen s.start) (widen s.stop) with
  | some (a, b) => c.line a b
  | none => c

/-- Draws the strokes one after another on a white canvas. -/
def drawn (stretch : α) (width height : Nat) (strokes : List (Segment α)) : Canvas :=
  strokes.foldl (stroke stretch) (blank width height)

end Canvas

end LSystem
