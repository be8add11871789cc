import LSystem.Decimal.Reading
import LSystem.Text.Blank
import LSystem.Text.Quoted

/-!
The size of a printed frame, written as its width, an `x`, and its height.
-/

namespace LSystem

def maxSide : Nat := 65535

/-- A width and a height, both from 1 to `maxSide`. -/
structure Dimensions where
  width : Nat
  height : Nat
  width_valid : 1 ≤ width ∧ width ≤ maxSide
  height_valid : 1 ≤ height ∧ height ≤ maxSide
deriving DecidableEq, Repr

inductive DimensionsError where
  | noSeparator (text : List Char)
  /-- This part of the text is not a valid side. -/
  | badSide (part : List Char)
deriving DecidableEq, Repr

def DimensionsError.message : DimensionsError → String
  | noSeparator text => "expected WIDTHxHEIGHT, got " ++ Text.quoted text
  | badSide part => Text.quoted part ++ " is not an integer in 1..=" ++ toString maxSide

namespace Dimensions

/-- Whether a character stands between the width and the height. -/
def isSeparator (c : Char) : Bool := c = 'x' || c = 'X'

/-- Reads one side: an integer that fits into 32 bits, blanks around it, in the valid range. -/
def readSide (part : List Char) :
    Except DimensionsError { n : Nat // 1 ≤ n ∧ n ≤ maxSide } :=
  match Decimal.readNat (Nat.pow 2 32 - 1) (Text.trim part) with
  | .ok n => if valid : 1 ≤ n ∧ n ≤ maxSide then .ok ⟨n, valid⟩ else .error (.badSide part)
  | .error _ => .error (.badSide part)

/-- Reads a size. The first separator counts; of two bad sides the width is the one named. -/
def read (text : List Char) : Except DimensionsError Dimensions :=
  match text.dropWhile (!isSeparator ·) with
  | [] => .error (.noSeparator text)
  | _ :: after => do
    let width ← readSide (text.takeWhile (!isSeparator ·))
    let height ← readSide after
    return {
      width := width.val, height := height.val
      width_valid := width.property, height_valid := height.property }

def text (d : Dimensions) : String := toString d.width ++ "x" ++ toString d.height

instance : ToString Dimensions := ⟨text⟩

end Dimensions

end LSystem
