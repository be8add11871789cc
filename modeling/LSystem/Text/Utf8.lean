/-!
Reading UTF-8. A character starts with a lead byte, which tells how many bytes follow it and
from which range the first of these is; all others are from 80 to BF. Reading stops at the first
byte that cannot belong to the character, so a broken one is as long as what was still right.
-/

namespace LSystem.Text.Utf8

/-- What a lead byte tells about the character that it starts. -/
structure Lead where
  more : Nat
  /-- The bits of the character in the lead byte. -/
  bits : Nat
  /-- The least value of the first byte that follows; it rules out overlong forms. -/
  low : Nat := 0x80
  /-- The greatest value of the first byte that follows; it rules out surrogates and all above
  the last character. -/
  high : Nat := 0xBF
deriving DecidableEq, Repr

/-- The reading of a lead byte, if it is one. -/
def lead? (byte : UInt8) : Option Lead :=
  let n := byte.toNat
  if n < 0x80 then some { more := 0, bits := n }
  else if n < 0xC2 then none
  else if n < 0xE0 then some { more := 1, bits := n - 0xC0 }
  else if n < 0xF0 then
    some { more := 2, bits := n - 0xE0, low := if n = 0xE0 then 0xA0 else 0x80,
           high := if n = 0xED then 0x9F else 0xBF }
  else if n < 0xF5 then
    some { more := 3, bits := n - 0xF0, low := if n = 0xF0 then 0x90 else 0x80,
           high := if n = 0xF4 then 0x8F else 0xBF }
  else none

/-- Reads the bytes that follow a lead byte, six bits from each, into the value. Gives the value,
or nothing when a byte is missing or out of range, and the bytes from there on. -/
def follow : (more low high value : Nat) → List UInt8 → Option Nat × List UInt8
  | 0, _, _, value, bytes => (some value, bytes)
  | _ + 1, _, _, _, [] => (none, [])
  | more + 1, low, high, value, byte :: bytes =>
    if low ≤ byte.toNat ∧ byte.toNat ≤ high then
      follow more 0x80 0xBF (value * 64 + byte.toNat % 64) bytes
    else (none, byte :: bytes)

theorem length_follow_le (more low high value : Nat) (bytes : List UInt8) :
    (follow more low high value bytes).2.length ≤ bytes.length := by
  induction more generalizing low high value bytes with
  | zero => exact Nat.le_refl _
  | succ more ih =>
    cases bytes with
    | nil => exact Nat.le_refl _
    | cons byte bytes =>
      rw [follow]
      split
      · exact Nat.le_succ_of_le (ih ..)
      · exact Nat.le_refl _

/-- Reads the character that `byte` starts. Gives it, or nothing when it is broken, and the
bytes after it. -/
def first (byte : UInt8) (bytes : List UInt8) : Option Char × List UInt8 :=
  match lead? byte with
  | none => (none, bytes)
  | some lead =>
    let (value, rest) := follow lead.more lead.low lead.high lead.bits bytes
    (value.map Char.ofNat, rest)

theorem length_first_le (byte : UInt8) (bytes : List UInt8) :
    (first byte bytes).2.length ≤ bytes.length := by
  unfold first
  split
  · exact Nat.le_refl _
  · exact length_follow_le ..

/-- The character that the bytes are, if they are exactly one. -/
def single? : List UInt8 → Option Char
  | [] => none
  | byte :: bytes =>
    match first byte bytes with
    | (some c, []) => some c
    | _ => none

def replacement : Char := '\uFFFD'

/-- The characters of the bytes, with the replacement for each broken one. -/
def lossy : List UInt8 → List Char
  | [] => []
  | byte :: bytes => (first byte bytes).1.getD replacement :: lossy (first byte bytes).2
termination_by bytes => bytes.length
decreasing_by exact Nat.lt_succ_of_le (length_first_le byte bytes)

end LSystem.Text.Utf8
