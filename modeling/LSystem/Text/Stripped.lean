/-!
Text without what a terminal would not show: escape sequences, and control characters other
than the blank ones.

A terminal reads bytes. A character beyond ASCII is shown outside sequences and means nothing in
one, except that strings also end at a certain byte, which such a character may contain.
-/

namespace LSystem.Text

/-- Where in an escape sequence a reader is. -/
inductive Sequence where
  | ground
  /-- Behind the escape character. -/
  | escape
  /-- Behind the escape character and characters from the blank to the slash. -/
  | intermediate
  /-- In a sequence that a letter ends. -/
  | control
  /-- At the head of a device string, before any parameter. -/
  | device
  /-- Among the parameters of a device string. -/
  | deviceParameters
  /-- Behind the parameters of a device string, among characters from the blank to the slash. -/
  | deviceIntermediate
  /-- In a string that only its terminator, a cancel character or the next escape ends. -/
  | string
  /-- In a string of commands, which has no terminator byte but that the bell may end. -/
  | command
deriving DecidableEq, Repr

namespace Sequence

def isKept (c : Char) : Bool := c = '\t' || c = '\n' || c = '\x0c' || c = '\r'

/-- Whether a control character ends any sequence. -/
def isCancel (c : Char) : Bool := c = '\x18' || c = '\x1a'

/-- The byte that terminates a string. -/
def terminator : UInt8 := 0x9C

/-- Whether one of the bytes of a character is the terminator. -/
def hasTerminator (c : Char) : Bool := (String.utf8EncodeChar c).contains terminator

/-- The place behind a character that follows the escape character. -/
def afterEscape (c : Char) : Sequence :=
  if c < '0' then .intermediate
  else if c = '[' then .control
  else if c = ']' then .command
  else if c = 'P' then .device
  else if c = 'X' || c = '^' || c = '_' then .string
  else .ground

/-- The place behind a control character and whether the character is shown. Strings ignore it;
other sequences end at one that is kept and ignore the rest. -/
def nextControl (place : Sequence) (c : Char) : Sequence × Bool :=
  match place with
  | .device | .deviceParameters | .deviceIntermediate | .string => (place, false)
  | .command => (if c = '\x07' then .ground else .command, false)
  | .ground | .escape | .intermediate | .control =>
    if isKept c then (.ground, true) else (place, false)

/-- The place behind a printable character of ASCII and whether the character is shown. -/
def nextPrintable (place : Sequence) (c : Char) : Sequence × Bool :=
  match place with
  | .ground => (.ground, true)
  | .escape => (afterEscape c, false)
  | .intermediate => (if c < '0' then .intermediate else .ground, false)
  | .control => (if c < '@' then .control else .ground, false)
  | .device =>
    (if c < '0' then .deviceIntermediate else if c < '@' then .deviceParameters else .string,
      false)
  | .deviceParameters =>
    (if c < '0' then .deviceIntermediate else if c < '<' then .deviceParameters else .string,
      false)
  | .deviceIntermediate => (if c < '0' then .deviceIntermediate else .string, false)
  | .string => (.string, false)
  | .command => (.command, false)

/-- The place behind a character beyond ASCII and whether the character is shown. -/
def nextLong (place : Sequence) (c : Char) : Sequence × Bool :=
  match place with
  | .ground => (.ground, true)
  | .string => (if hasTerminator c then .ground else .string, false)
  | place => (place, false)

/-- Reads one character. Gives the place behind it and whether it is shown. -/
def next (place : Sequence) (c : Char) : Sequence × Bool :=
  if c = '\x1b' then (.escape, false)
  else if isCancel c then (.ground, false)
  else if '\x7f' < c then place.nextLong c
  else if c < ' ' || c = '\x7f' then place.nextControl c
  else place.nextPrintable c

def shown : Sequence → List Char → List Char
  | _, [] => []
  | place, c :: text =>
    match place.next c with
    | (place, true) => c :: shown place text
    | (place, false) => shown place text

end Sequence

/-- The text without what would not be shown. -/
def stripped (text : List Char) : List Char := Sequence.ground.shown text

end LSystem.Text
