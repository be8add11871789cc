import LSystem.Terminal.Cell

/-!
Commands to a terminal and the text that each is sent as: a character for itself, anything else
as an escape sequence.
-/

namespace LSystem.Terminal

inductive Command where
  /-- Shows a character at the cursor and moves the cursor behind it. -/
  | print (ch : Char)
  /-- Moves the cursor; column and row count from 0. -/
  | moveTo (x y : Nat)
  | hideCursor
  | showCursor
  | clearScreen
  /-- Shows what follows without attributes. -/
  | resetAttrs
  /-- Shows what follows with more attributes. -/
  | addAttrs (attrs : Attrs)
  /-- Holds back the picture until `endSync`. -/
  | beginSync
  | endSync
  /-- Puts the screen aside and starts on another one. -/
  | enterAlternate
  /-- Returns to the screen that was put aside. -/
  | leaveAlternate
  /-- Marks pasted text from here on. -/
  | enablePaste
  | disablePaste
deriving DecidableEq, Repr

namespace Command

/-- What opens a sequence with parameters. -/
def introducer : String := "\x1b["

/-- The known attributes and their parameters, in the order in which they are sent. -/
def attrCodes : List (Attrs × String) :=
  [(.bold, "1"), (.dim, "2"), (.underline, "4"), (.inverse, "7")]

/-- The parameters of the known attributes among `attrs`. -/
def codes (attrs : Attrs) : List String :=
  (attrCodes.filter fun e => attrs.contains e.1).map Prod.snd

/-- A character as it is sent. The null character, which shows nothing, becomes a question
mark. -/
def printable (ch : Char) : Char := if ch = '\x00' then '?' else ch

/-- The text that a command is sent as. Positions count from 1 there, the row first. Adding no
attribute sends nothing. -/
def text : Command → String
  | print ch => (printable ch).toString
  | moveTo x y => introducer ++ toString (y + 1) ++ ";" ++ toString (x + 1) ++ "H"
  | hideCursor => introducer ++ "?25l"
  | showCursor => introducer ++ "?25h"
  | clearScreen => introducer ++ "2J"
  | resetAttrs => introducer ++ "0m"
  | addAttrs attrs =>
    if attrs = .plain then "" else introducer ++ ";".intercalate (codes attrs) ++ "m"
  | beginSync => introducer ++ "?2026h"
  | endSync => introducer ++ "?2026l"
  | enterAlternate => introducer ++ "?1049h"
  | leaveAlternate => introducer ++ "?1049l"
  | enablePaste => introducer ++ "?2004h"
  | disablePaste => introducer ++ "?2004l"

def textOfAll (commands : List Command) : String :=
  commands.foldl (fun out c => out ++ c.text) ""

end Command

end LSystem.Terminal
