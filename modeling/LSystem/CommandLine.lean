import LSystem.Dimensions
import LSystem.Settings
import LSystem.Text.Stripped

/-!
The command line. Options take a value, attached (`--length=2`, `-l2`, `-l=2`) or as the next
argument; a value that stands alone does not start with a dash. No option may be given twice,
and there are no other arguments.

Arguments are read from left to right. The value of an option is looked at when the next option
is reached, so that an unknown argument right behind it is refused first.
-/

namespace LSystem

inductive ValueOption where
  | iterations
  | length
  | limit
  | ramp
  | fractal
  | logFile
  | print
deriving DecidableEq, Repr

namespace ValueOption

def name : ValueOption → String
  | iterations => "iterations"
  | length => "length"
  | limit => "max-expansion"
  | ramp => "ramp"
  | fractal => "fractal"
  | logFile => "log-file"
  | print => "print"

def placeholder : ValueOption → String
  | iterations => "ITERATIONS"
  | length => "LENGTH"
  | limit => "SYMBOLS"
  | ramp => "GLYPHS"
  | fractal => "INDEX"
  | logFile => "PATH"
  | print => "WIDTHxHEIGHT"

/-- The one-letter name of those that have one. -/
def letter? : ValueOption → Option Char
  | iterations => some 'i'
  | length => some 'l'
  | fractal => some 'f'
  | _ => none

def all : List ValueOption := [iterations, length, limit, ramp, fractal, logFile, print]

/-- How the option is written in messages. -/
def usage (o : ValueOption) : String := "--" ++ o.name ++ " <" ++ o.placeholder ++ ">"

end ValueOption

/-- The options that ask for a text instead of a session. -/
inductive InfoOption where
  | help
  | version
deriving DecidableEq, Repr

namespace InfoOption

def name : InfoOption → String
  | help => "help"
  | version => "version"

def letter : InfoOption → Char
  | help => 'h'
  | version => 'V'

def all : List InfoOption := [help, version]

end InfoOption

/-- Why a command line starts no session. -/
inductive Refusal where
  | info (which : InfoOption)
  /-- There is no such option, or the argument belongs to none. -/
  | unknown (argument : String)
  | missingValue (option : ValueOption)
  | repeated (option : ValueOption)
  /-- A value is attached to an option that takes none. -/
  | unneededValue (option : InfoOption)
  | badValue (option : ValueOption) (value : List Char) (reason : String)
deriving DecidableEq, Repr

structure Arguments where
  iterations : Nat := ({} : Settings).iterations
  length : Float := ({} : Settings).length
  limit : Nat := ({} : Settings).limit
  ramp : Option GlyphRamp := none
  /-- Position of the fractal that is shown first. -/
  fractal : Nat := 0
  logFile : Option String := none
  /-- The size of the frame to print instead of a session. -/
  print : Option Dimensions := none

def Decimal.Fault.integerMessage : Decimal.Fault → String
  | empty => "cannot parse integer from empty string"
  | invalid => "invalid digit found in string"
  | tooLarge => "number too large to fit in target type"
  | tooSmall => "number too small to fit in target type"

def Decimal.Fault.numberMessage : Decimal.Fault → String
  | empty => "cannot parse float from empty string"
  | _ => "invalid float literal"

namespace Arguments

/-- Largest number of iterations, which a 32-bit word holds. -/
def maxIterations : Nat := Nat.pow 2 32 - 1

/-- Reads a number of iterations. It is read as a signed 64-bit integer, then checked. -/
def readIterations (value : List Char) : Except String Nat :=
  match Decimal.readInt (Nat.pow 2 63 - 1) value with
  | .error fault => .error fault.integerMessage
  | .ok n =>
    if 0 ≤ n ∧ n ≤ maxIterations then .ok n.toNat
    else .error (toString n ++ " is not in 0..=" ++ toString maxIterations)

def readCount (value : List Char) : Except String Nat :=
  (Decimal.readNat (Nat.pow 2 64 - 1) value).mapError Decimal.Fault.integerMessage

/-- Sets the value of an option. A path must not be empty; of other texts the reason tells what
is wrong. -/
def set (a : Arguments) (o : ValueOption) (value : List Char) : Except Refusal Arguments :=
  let bad (reason : String) : Refusal := .badValue o value reason
  match o with
  | .iterations => (readIterations value).mapError bad |>.map fun n => { a with iterations := n }
  | .length =>
    (Decimal.readFloat value).mapError (bad ·.numberMessage) |>.map fun x => { a with length := x }
  | .limit => (readCount value).mapError bad |>.map fun n => { a with limit := n }
  | .ramp =>
    (GlyphRamp.ofString (String.ofList value)).mapError (bad ·.message) |>.map fun ramp =>
      { a with ramp := some ramp }
  | .fractal => (readCount value).mapError bad |>.map fun n => { a with fractal := n }
  | .logFile =>
    if value = [] then .error (.missingValue o)
    else .ok { a with logFile := some (String.ofList value) }
  | .print =>
    (Dimensions.read value).mapError (bad ·.message) |>.map fun d => { a with print := some d }

/-- The settings that the arguments ask for, if they are valid. -/
def settings (a : Arguments) : Except SettingsError Settings :=
  let settings : Settings := {
    ramp := a.ramp.getD .standard
    limit := a.limit
    iterations := a.iterations
    length := a.length }
  settings.check.map fun _ => settings

end Arguments

namespace CommandLine

/-- A reader of arguments: what is set so far, by which options, and the last option with its
value if that has been seen. -/
structure Reader where
  arguments : Arguments := {}
  given : List ValueOption := []
  pending : Option (ValueOption × Option (List Char)) := none

namespace Reader

/-- Sets the value of an option that has not been given before. -/
def give (r : Reader) (o : ValueOption) (value : List Char) : Except Refusal Reader :=
  if o ∈ r.given then .error (.repeated o)
  else (r.arguments.set o value).map fun arguments =>
    { arguments, given := o :: r.given, pending := none }

def settle (r : Reader) : Except Refusal Reader :=
  match r.pending with
  | none => .ok r
  | some (o, none) => .error (.missingValue o)
  | some (o, some value) => r.give o value

/-- Takes an option. Its value is attached or comes next. -/
def take (r : Reader) (o : ValueOption) (attached : Option (List Char)) :
    Except Refusal Reader := do
  let r ← r.settle
  match attached with
  | some value => r.give o value
  | none => return { r with pending := some (o, none) }

def inform (r : Reader) (o : InfoOption) : Except Refusal Reader := do
  let _ ← r.settle
  throw (.info o)

def long? (name : String) : Option (ValueOption ⊕ InfoOption) :=
  ((ValueOption.all.find? (·.name = name)).map .inl).orElse fun _ =>
    (InfoOption.all.find? (·.name = name)).map .inr

def short? (letter : Char) : Option (ValueOption ⊕ InfoOption) :=
  ((ValueOption.all.find? (·.letter? = some letter)).map .inl).orElse fun _ =>
    (InfoOption.all.find? (·.letter = letter)).map .inr

/-- A name and the value behind the first equals sign, if there is one. -/
def splitValue (body : List Char) : List Char × Option (List Char) :=
  match body.dropWhile (· ≠ '=') with
  | [] => (body, none)
  | _ :: value => (body.takeWhile (· ≠ '='), some value)

/-- Takes an argument that starts with two dashes; `body` is what follows them. -/
def takeLong (r : Reader) (body : List Char) : Except Refusal Reader :=
  let (name, value) := splitValue body
  match long? (String.ofList name), value with
  | some (.inl o), value => r.take o value
  | some (.inr o), none => r.inform o
  | some (.inr o), some _ => .error (.unneededValue o)
  | none, _ => .error (.unknown ("--" ++ String.ofList name))

/-- The value that is attached to a one-letter name, with or without an equals sign. -/
def attachedValue? : List Char → Option (List Char)
  | [] => none
  | '=' :: value => some value
  | value => some value

/-- Takes an argument that starts with one dash; only the first letter can matter, because every
option either ends the argument or ends the reading. -/
def takeShort (r : Reader) (letter : Char) (rest : List Char) : Except Refusal Reader :=
  match short? letter with
  | some (.inl o) => r.take o (attachedValue? rest)
  | some (.inr o) => r.inform o
  | none => .error (.unknown ("-" ++ letter.toString))

/-- Takes an argument that is no option: the value that the last option waits for. -/
def takeValue (r : Reader) (value : List Char) : Except Refusal Reader :=
  match r.pending with
  | some (o, none) => .ok { r with pending := some (o, some value) }
  | _ => .error (.unknown (String.ofList value))

/-- Takes all arguments. After `--` there must be none. -/
def takeAll (r : Reader) : List (List Char) → Except Refusal Reader
  | [] => r.settle
  | ['-', '-'] :: [] => r.settle
  | ['-', '-'] :: next :: _ => .error (.unknown (String.ofList next))
  | argument :: more => do
    let r ← match argument with
      | '-' :: '-' :: body => r.takeLong body
      | '-' :: letter :: rest => r.takeShort letter rest
      | value => r.takeValue value
    r.takeAll more

end Reader

def read (arguments : List String) : Except Refusal Arguments :=
  (({} : Reader).takeAll (arguments.map String.toList)).map Reader.arguments

end CommandLine

end LSystem
