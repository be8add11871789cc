import LSystem.Cursor
import LSystem.Gallery
import LSystem.Settings

/-!
The scene: a gallery and how one of its fractals is being looked at and edited. An intent is one
decoded wish of the user; acting on it gives the next scene and never fails.
-/

namespace LSystem

/-- The integer nearest to `n` that a signed 32-bit word holds. -/
def saturate32 (n : Int) : Int := max (-Int.pow 2 31) (min n (Int.pow 2 31 - 1))

def maxIterations : Nat := Nat.pow 2 32 - 1

/-- How the selected fractal is looked at, and where it is being edited. -/
structure View where
  selected : Nat
  /-- Turn angle in degrees. -/
  angle : Int
  iterations : Nat
  /-- Length of a turtle step in pixels. -/
  length : Float
  /-- Heading of the turtle at first, in degrees. -/
  heading : Int
  panX : Int
  panY : Int
  cursor : Cursor

inductive Intent where
  | nextFractal
  | previousFractal
  | turnLeft
  | turnRight
  | growLength
  | shrinkLength
  | moreIterations
  | fewerIterations
  | panUp
  | panDown
  | panLeft
  | panRight
  | headingClockwise
  | headingCounterclockwise
  | enterField (row : Nat)
  | toggleHalf
  | editSymbol
  | editValue
  | append (ch : Char)
  | backspace
  | cursorUp
  | cursorDown
  | newFractal
deriving DecidableEq, Repr

structure Scene where
  gallery : Gallery
  view : View
  selected_lt : view.selected < gallery.size

namespace View

/-- The view at first: of the fractal at position `selected`, whose angle is `angle`. -/
def initial (selected : Nat) (angle : Int) (settings : Settings) : View where
  selected
  angle
  iterations := settings.iterations
  length := settings.length
  heading := 0
  panX := 0
  panY := 0
  cursor := {}

def growthFactor : Float := 1.5

/-- Factor by which the length shrinks with each further iteration. -/
def iterationFactor : Float := 2.0

def leastLength : Float := 1e-6

/-- Multiplies the length. A product that is not above the least length becomes that. -/
def scaleLength (v : View) (factor : Float) : View :=
  let length := v.length * factor
  { v with length := if leastLength < length then length else leastLength }

def turn (v : View) (degrees : Int) : View := { v with angle := saturate32 (v.angle + degrees) }

def rotate (v : View) (degrees : Int) : View :=
  { v with heading := saturate32 (v.heading + degrees) }

def pan (v : View) (dx dy : Int) : View :=
  { v with panX := saturate32 (v.panX + dx), panY := saturate32 (v.panY + dy) }

def moreIterations (v : View) : View :=
  { v with iterations := min (v.iterations + 1) maxIterations }.scaleLength (1.0 / iterationFactor)

/-- One iteration fewer, with steps twice as long; nothing at generation 0. -/
def fewerIterations (v : View) : View :=
  if v.iterations = 0 then v
  else { v with iterations := v.iterations - 1 }.scaleLength iterationFactor

end View

namespace Scene

def newName : String := "New Fractal"

def current (s : Scene) : Fractal :=
  have inside := s.selected_lt
  s.gallery[s.view.selected]

/-- Changes the view but not the selection. -/
def withView (s : Scene) (f : View → View)
    (keeps : (f s.view).selected = s.view.selected := by rfl) : Scene :=
  { s with view := f s.view, selected_lt := keeps ▸ s.selected_lt }

/-- Moves the cursor, with a change of the selected fractal. -/
def edit (s : Scene) (f : Cursor → Fractal → Cursor × Fractal) : Scene :=
  let (cursor, fractal) := f s.view.cursor s.current
  { gallery := s.gallery.modify s.view.selected fun _ => fractal
    view := { s.view with cursor }
    selected_lt := by
      rw [Gallery.size_modify]
      exact s.selected_lt }

/-- As `edit`, for a change that may be refused. -/
def tryEdit (s : Scene) (f : Cursor → Fractal → Option (Cursor × Fractal)) : Scene :=
  match f s.view.cursor s.current with
  | some changed => s.edit fun _ _ => changed
  | none => s

/-- Selects another fractal. The one that is left loses its pending rule; the angle becomes that
of the new one, and the cursor is on its name. -/
def select (s : Scene) (i : Nat) (inside : i < s.gallery.size) : Scene :=
  { gallery := s.gallery.modify s.view.selected Fractal.dropPending
    view := { s.view with selected := i, angle := s.gallery[i].angle, cursor := {} }
    selected_lt := by
      rw [Gallery.size_modify]
      exact inside }

/-- Appends a copy of the selected fractal and selects it. -/
def addCopy (s : Scene) : Scene :=
  let gallery := s.gallery.push (s.current.copyAs newName)
  have grown : gallery.size = s.gallery.size + 1 := Gallery.size_push ..
  let wider : Scene := { s with gallery, selected_lt := by have := s.selected_lt; omega }
  wider.select s.gallery.size (by show s.gallery.size < gallery.size; omega)

def act (s : Scene) : Intent → Scene
  | .nextFractal => s.select (s.gallery.next s.view.selected) (s.gallery.next_lt _)
  | .previousFractal => s.select (s.gallery.previous s.view.selected) (s.gallery.previous_lt _)
  | .turnLeft => s.withView (·.turn (-1))
  | .turnRight => s.withView (·.turn 1)
  | .growLength => s.withView (·.scaleLength View.growthFactor)
  | .shrinkLength => s.withView (·.scaleLength (1.0 / View.growthFactor))
  | .moreIterations => s.withView View.moreIterations
  | .fewerIterations => s.withView View.fewerIterations (by
      unfold View.fewerIterations
      split <;> rfl)
  | .panUp => s.withView (·.pan 0 (-1))
  | .panDown => s.withView (·.pan 0 1)
  | .panLeft => s.withView (·.pan (-1) 0)
  | .panRight => s.withView (·.pan 1 0)
  | .headingClockwise => s.withView (·.rotate 1)
  | .headingCounterclockwise => s.withView (·.rotate (-1))
  | .enterField row => s.edit fun c f => (c.enter f row, f)
  | .toggleHalf => s.edit fun c f => (c.toggle, f)
  | .editSymbol => s.edit fun c f => (c.toSymbol, f)
  | .editValue => s.edit fun c f => (c.toValue, f)
  | .append ch => s.tryEdit (·.type? · ch)
  | .backspace => s.tryEdit Cursor.erase?
  | .cursorUp => s.edit Cursor.moveUp
  | .cursorDown => s.edit Cursor.moveDown
  | .newFractal => s.addCopy

end Scene

end LSystem
