import LSystem.Binary64

/-!
The fused `a * b + c`: the exact value rounded once. `mulAddExact` computes it in integers.
`mulAdd` gives the same value faster: the rounding errors of a product and of a sum are
themselves floats, and they are added with rounding to odd, so that the last addition is the
only one that rounds to nearest.
-/

namespace LSystem.Binary64

/-- The fused value, by exact integer arithmetic on finite arguments. -/
def mulAddExact (a b c : Float) : Float :=
  match parts a, parts b, parts c with
  | .finite na ma ea, .finite nb mb eb, .finite nc mc ec =>
    if ma = 0 ∨ mb = 0 then a * b + c
    else
      let e := min (ea + eb) ec
      let signed (negative : Bool) (m : Nat) : Int := if negative then -m else m
      let sum := signed (na != nb) (ma * mb * Nat.pow 2 (ea + eb - e).toNat) +
        signed nc (mc * Nat.pow 2 (ec - e).toNat)
      let (n, d) := scale sum.natAbs 1 e
      ofRatio (sum < 0) n d
  | .finite .., .finite .., _ => c
  | _, _, _ => a * b + c

/-- A sum and its rounding error. -/
def twoSum (a b : Float) : Float × Float :=
  let s := a + b
  let b' := s - a
  (s, (a - (s - b')) + (b - b'))

/-- The upper and the lower half of the digits. -/
def split (a : Float) : Float × Float :=
  let t := 134217729.0 * a
  let high := t - (t - a)
  (high, a - high)

/-- A product and its rounding error, for factors of moderate size. -/
def twoProduct (a b : Float) : Float × Float :=
  let p := a * b
  let (ah, al) := split a
  let (bh, bl) := split b
  (p, ((ah * bh - p) + ah * bl + al * bh) + al * bl)

/-- A sum rounded to odd: an inexact one becomes the neighbour with an odd last digit. -/
def addToOdd (a b : Float) : Float :=
  let (s, err) := twoSum a b
  let bits := s.toBits
  if err == 0.0 || bits &&& 1 == 1 then s
  else if (err > 0.0) == (s > 0.0) then Float.ofBits (bits + 1)
  else Float.ofBits (bits - 1)

/-- The exponent field, which is 1023 for values from 1 up to 2. -/
def exponentField (x : Float) : UInt64 := x.toBits >>> 52 &&& 2047

/-- Whether no step on values of this size can overflow or lose digits below the least one:
factors below `2 ^ 300`, and a product and a summand of magnitude between `2 ^ -600` and
`2 ^ 600`; the summand may also be zero. -/
def isModerate (a b c : Float) : Bool :=
  let summand := exponentField c
  exponentField a < 1323 && exponentField b < 1323 && 423 < exponentField (a * b) &&
    summand < 1623 && (423 < summand || c == 0.0)

def mulAdd (a b c : Float) : Float :=
  if b == 1.0 then a + c
  else if a == 0.0 || b == 0.0 then a * b + c
  else if isModerate a b c then
    let (uh, ul) := twoProduct a b
    let (th, tl) := twoSum c ul
    let (vh, vl) := twoSum uh th
    vh + addToOdd tl vl
  else mulAddExact a b c

end LSystem.Binary64
