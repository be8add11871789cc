/-!
Binary64 values taken apart into exact integers, and the nearest binary64 value of an exact
quotient. Halves go to the even neighbour.
-/

namespace LSystem.Binary64

/-- What a binary64 value is: not a number, an infinity, or an exact `±magnitude * 2 ^ exponent`. -/
inductive Parts where
  | nan
  | infinite (negative : Bool)
  | finite (negative : Bool) (magnitude : Nat) (exponent : Int)
deriving DecidableEq, Repr

/-- Takes a value apart. The magnitude is below `2 ^ 53` and the exponent is least possible. -/
def parts (x : Float) : Parts :=
  let bits := x.toBits.toNat
  let negative := bits / Nat.pow 2 63 == 1
  let field : Nat := bits / Nat.pow 2 52 % Nat.pow 2 11
  let fraction : Nat := bits % Nat.pow 2 52
  if field = 2047 then if fraction = 0 then .infinite negative else .nan
  else if field = 0 then .finite negative fraction (-1074)
  else .finite negative (Nat.pow 2 52 + fraction) ((field : Int) - 1075)

/-- The integer nearest to `num / den`; a half goes to the even neighbour. -/
def divNearest (num den : Nat) : Nat :=
  let quotient := num / den
  let twice := 2 * (num % den)
  if twice < den then quotient
  else if den < twice then quotient + 1
  else quotient + quotient % 2

/-- `num / den * 2 ^ e` as a quotient of natural numbers. -/
def scale (num den : Nat) (e : Int) : Nat × Nat :=
  match e with
  | .ofNat k => (num * Nat.pow 2 k, den)
  | .negSucc k => (num, den * Nat.pow 2 (k + 1))

/-- The largest `b` with `2 ^ b ≤ num / den`, for positive `num` and `den`. -/
def floorLog2 (num den : Nat) : Int :=
  let b : Int := (Nat.log2 num : Int) - Nat.log2 den
  let (n, d) := scale num den (-b)
  if n < d then b - 1 else b

/-- The bits of the value nearest to `num / den`; too large a quotient becomes infinite.
The rounded magnitude carries into the exponent field by itself. -/
def magnitudeBits (num den : Nat) : Nat :=
  if num = 0 then 0
  else
    let e := max (floorLog2 num den - 52) (-1074)
    let (n, d) := scale num den (-e)
    min ((e + 1074).toNat * Nat.pow 2 52 + divNearest n d) (2047 * Nat.pow 2 52)

/-- The binary64 value nearest to `±num / den`. -/
def ofRatio (negative : Bool) (num den : Nat) : Float :=
  Float.ofBits (.ofNat (magnitudeBits num den + if negative then Nat.pow 2 63 else 0))

end LSystem.Binary64
