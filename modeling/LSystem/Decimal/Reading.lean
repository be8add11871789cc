import LSystem.Binary64

/-!
Reading a decimal as the nearest binary64 value, and reading integers with an overflow check.
-/

namespace LSystem.Decimal

def digit? (c : Char) : Option Nat :=
  if '0' ≤ c ∧ c ≤ '9' then some (c.toNat - '0'.toNat) else none

def isDigit (c : Char) : Bool := (digit? c).isSome

def valueOf (digits : List Char) : Nat :=
  digits.foldl (fun n c => 10 * n + (digit? c).getD 0) 0

/-- The leading digits and what follows them. -/
def spanDigits (s : List Char) : List Char × List Char :=
  (s.takeWhile isDigit, s.dropWhile isDigit)

/-- A sign, if there is one, and what follows it. -/
def spanSign : List Char → Bool × List Char
  | '-' :: rest => (true, rest)
  | '+' :: rest => (false, rest)
  | s => (false, s)

/-- Why a text is no number of the wanted kind. -/
inductive Fault where
  | empty
  | invalid
  | tooLarge
  | tooSmall
deriving DecidableEq, Repr

/-- Reads digits from the left into `n`. A digit that lifts the value above `limit` is the
`overflow`; of that and a character that is no digit, the one further left is the fault. -/
def readDigits (limit : Nat) (overflow : Fault) : Nat → List Char → Except Fault Nat
  | n, [] => .ok n
  | n, c :: rest =>
    match digit? c with
    | none => .error .invalid
    | some d =>
      let n := 10 * n + d
      if limit < n then .error overflow else readDigits limit overflow n rest

/-- Reads an unsigned integer up to `limit`. A plus sign may stand before it. -/
def readNat (limit : Nat) (s : List Char) : Except Fault Nat :=
  match s with
  | [] => .error .empty
  | ['+'] => .error .invalid
  | '+' :: digits => readDigits limit .tooLarge 0 digits
  | digits => readDigits limit .tooLarge 0 digits

/-- Reads an integer from `-(limit + 1)` to `limit`. A sign may stand before it. -/
def readInt (limit : Nat) (s : List Char) : Except Fault Int :=
  match s with
  | [] => .error .empty
  | ['+'] | ['-'] => .error .invalid
  | '-' :: digits => (readDigits (limit + 1) .tooSmall 0 digits).map fun n => -(n : Int)
  | '+' :: digits => (readDigits limit .tooLarge 0 digits).map Int.ofNat
  | digits => (readDigits limit .tooLarge 0 digits).map Int.ofNat

/-- The binary64 value nearest to `±digits * 10 ^ exponent`. Powers beyond the range of the
format are cut short; their value is zero or infinite either way. -/
def nearest (negative : Bool) (digits : Nat) (exponent : Int) : Float :=
  let length : Int := (toString digits).length
  if digits = 0 ∨ length + exponent < -400 then Binary64.ofRatio negative 0 1
  else if 400 < length + exponent then
    if negative then -(1.0 / 0.0) else 1.0 / 0.0
  else match exponent with
    | .ofNat k => Binary64.ofRatio negative (digits * Nat.pow 10 k) 1
    | .negSucc k => Binary64.ofRatio negative digits (Nat.pow 10 (k + 1))

/-- The exponent part: nothing, or `e` or `E`, a sign if there is one, and digits. -/
def readExponent? : List Char → Option Int
  | [] => some 0
  | c :: rest =>
    if c = 'e' ∨ c = 'E' then
      let (negative, digits) := spanSign rest
      if digits ≠ [] ∧ digits.all isDigit then
        let n : Int := valueOf digits
        some (if negative then -n else n)
      else none
    else none

/-- A number without its sign: digits with at most one point among, before or after them, and
an exponent part. -/
def readMagnitude? (negative : Bool) (s : List Char) : Option Float :=
  let (whole, rest) := spanDigits s
  let (fraction, rest) := match rest with
    | '.' :: rest => spanDigits rest
    | rest => ([], rest)
  if whole = [] ∧ fraction = [] then none
  else (readExponent? rest).map fun exponent =>
    nearest negative (valueOf (whole ++ fraction)) (exponent - fraction.length)

/-- Reads a binary64 value: a decimal, `inf`, `infinity` or `nan` in any case, with a sign if
there is one. -/
def readFloat (s : List Char) : Except Fault Float :=
  if s = [] then .error .empty
  else
    let (negative, body) := spanSign s
    let word := String.ofList (body.map Char.toLower)
    if word = "inf" ∨ word = "infinity" then
      .ok (if negative then -(1.0 / 0.0) else 1.0 / 0.0)
    else if word = "nan" then .ok (0.0 / 0.0)
    else match readMagnitude? negative body with
      | some x => .ok x
      | none => .error .invalid

end LSystem.Decimal
