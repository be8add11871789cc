import LSystem.Decimal.Shortest

/-!
Decimals with a fixed number of places: the exact binary value rounded once, a half to the
even neighbour.
-/

namespace LSystem.Decimal

/-- `m * 2 ^ e` with `places` digits after the point. -/
def fixedMagnitude (places m : Nat) (e : Int) : String :=
  let (n, d) := Binary64.scale m 1 e
  pointed (Binary64.divNearest (n * Nat.pow 10 places) d) places

/-- Fixed notation with `places` digits after the point. -/
def fixed (places : Nat) (x : Float) : String := signed x (fixedMagnitude places)

/-- `m * 2 ^ e` with one digit before the point, `places` after it, and a power of ten.
Rounding may carry into a digit of its own, which raises the power by one. -/
def scientificMagnitude (places m : Nat) (e : Int) : String :=
  if m = 0 then pointed 0 places ++ "e0"
  else
    let (n, d) := Binary64.scale m 1 e
    let power := floorLog10 n d
    let (n, d) := scale n d (places - power)
    let digits := Binary64.divNearest n d
    if digits < Nat.pow 10 (places + 1) then pointed digits places ++ "e" ++ toString power
    else pointed (digits / 10) places ++ "e" ++ toString (power + 1)

/-- Scientific notation with `places` digits after the point and a bare exponent. -/
def scientific (places : Nat) (x : Float) : String := signed x (scientificMagnitude places)

end LSystem.Decimal
