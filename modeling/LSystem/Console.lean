import LSystem.Viewer

/-!
The console: a viewer on a terminal, whose input is cut into pieces as it is read. What is sent
before and after puts the terminal's screen aside and brings it back.
-/

namespace LSystem

open Terminal

structure Ending where
  output : String
  viewer : Viewer
  /-- Whether the user quit; otherwise the input ended. -/
  quit : Bool

namespace Console

/-- Size of the screen where the terminal does not tell it. -/
def width : Nat := 80

def height : Nat := 24

/-- Most bytes that are read at once. -/
def pieceSize : Nat := 4096

def opening : List Command := [.enterAlternate, .hideCursor, .clearScreen, .enablePaste]

def closing : List Command :=
  [.endSync, .disablePaste, .resetAttrs, .showCursor, .leaveAlternate]

def start (viewer : Viewer) : Loop Viewer := .start Viewer.app viewer ⟨width, height⟩

def run (viewer : Viewer) (pieces : List (List UInt8)) : Ending :=
  let ending := (start viewer).run Viewer.app (pieces.map .bytes)
  { output := Command.textOfAll opening ++ ending.output ++ Command.textOfAll closing
    viewer := ending.loop.state
    quit := ending.quit }

/-- Input cut into pieces as it is read. -/
def pieces : List UInt8 → List (List UInt8)
  | [] => []
  | byte :: bytes => (byte :: bytes).take pieceSize :: pieces ((byte :: bytes).drop pieceSize)
termination_by bytes => bytes.length
decreasing_by
  have : 0 < pieceSize := by decide
  rw [List.length_drop, List.length_cons]
  omega

end Console

end LSystem
