import LSystem.Binary64

/-!
The shortest decimal that reads back as a given binary64 value, and among those the nearest.
Digits are chosen on one decimal grid after the other, from coarse to fine: a grid serves when
one of the two grid points around the value lies in the interval of reals that round to it.
-/

namespace LSystem.Decimal

/-- An exact decimal `digits * 10 ^ exponent`. -/
structure Scaled where
  digits : Nat
  exponent : Int
deriving DecidableEq, Repr

/-- `num / den * 10 ^ e` as a quotient of natural numbers. -/
def scale (num den : Nat) (e : Int) : Nat × Nat :=
  match e with
  | .ofNat k => (num * Nat.pow 10 k, den)
  | .negSucc k => (num, den * Nat.pow 10 (k + 1))

/-- The largest `k` with `10 ^ k ≤ num / den`, found upward from `k`, for at most `n` steps. -/
def climb (num den : Nat) : Nat → Int → Int
  | 0, k => k
  | n + 1, k =>
    let (a, b) := scale num den (-(k + 1))
    if a < b then k else climb num den n (k + 1)

/-- The largest `k` with `10 ^ k ≤ num / den`, for positive `num` and `den`. The start is
estimated from the binary size and is at most three too small. -/
def floorLog10 (num den : Nat) : Int :=
  climb num den 4 (Int.fdiv ((Binary64.floorLog2 num den) * 30103) 100000 - 1)

/-- The reals that round to a magnitude: between `low` and `high` quarter units, with the ends
when `closed`. -/
structure Basin where
  low : Nat
  high : Nat
  closed : Bool

/-- The basin of `m * 2 ^ e` in units of `2 ^ (e - 2)`. Below a power of two the neighbour is
half as far. -/
def Basin.of (m : Nat) (e : Int) : Basin where
  low := if m = Nat.pow 2 52 ∧ -1074 < e then 4 * m - 1 else 4 * m - 2
  high := 4 * m + 2
  closed := m % 2 == 0

/-- Whether `digits * 10 ^ k` lies in the basin, whose unit is `2 ^ (e - 2)`. -/
def Basin.contains (b : Basin) (e : Int) (digits : Nat) (k : Int) : Bool :=
  let (n, d) := scale digits 1 k
  let (n, d) := Binary64.scale n d (2 - e)
  if b.closed then b.low * d ≤ n && n ≤ b.high * d else b.low * d < n && n < b.high * d

/-- The point of the grid `10 ^ k` that serves for `m * 2 ^ e`: the nearer of two, of two
equally near ones the upper. -/
def onGrid? (m : Nat) (e k : Int) : Option Nat :=
  let basin := Basin.of m e
  let (n, d) := Binary64.scale m 1 e
  let (n, d) := scale n d (-k)
  let below := n / d
  let isBelowNearer := 2 * (n % d) < d
  let nearest := if isBelowNearer then below else below + 1
  let other := if isBelowNearer then below + 1 else below
  if basin.contains e nearest k then some nearest
  else if basin.contains e other k then some other
  else none

/-- Tries the grids `10 ^ k`, `10 ^ (k - 1)`, and so on. -/
def search (m : Nat) (e : Int) : Nat → Int → Scaled
  | 0, k => ⟨(onGrid? m e k).getD 0, k⟩
  | n + 1, k =>
    match onGrid? m e k with
    | some digits => ⟨digits, k⟩
    | none => search m e n (k - 1)

/-- The shortest decimal that reads back as the positive magnitude `m * 2 ^ e`. Seventeen
digits always serve. -/
def shortest (m : Nat) (e : Int) : Scaled :=
  let (n, d) := Binary64.scale m 1 e
  search m e 17 (floorLog10 n d)

/-- Decimal digits with a point `places` digits before the end, padded with zeros. -/
def pointed (digits places : Nat) : String :=
  if places = 0 then toString digits
  else
    let text := (toString digits).toList
    let text := List.replicate (places + 1 - text.length) '0' ++ text
    let whole := text.length - places
    String.ofList (text.take whole ++ '.' :: text.drop whole)

/-- Drops zeros at the end of the digits, for at most `n` digits. -/
def Scaled.trim : Nat → Scaled → Scaled
  | 0, s => s
  | n + 1, s =>
    if s.digits ≠ 0 ∧ s.digits % 10 = 0 then trim n ⟨s.digits / 10, s.exponent + 1⟩ else s

/-- Positional notation without an exponent, and with a point only before a fraction. -/
def Scaled.positional (s : Scaled) : String :=
  let s := s.trim 20
  match s.exponent with
  | .ofNat k => toString (s.digits * Nat.pow 10 k)
  | .negSucc k => pointed s.digits (k + 1)

/-- Writes a value that may not be finite: `NaN`, `inf`, or a sign and the given text of the
magnitude `m * 2 ^ e`. Zero has a sign too. -/
def signed (x : Float) (magnitude : Nat → Int → String) : String :=
  match Binary64.parts x with
  | .nan => "NaN"
  | .infinite negative => if negative then "-inf" else "inf"
  | .finite negative m e => (if negative then "-" else "") ++ magnitude m e

/-- The shortest text that reads back, in positional notation. -/
def text (x : Float) : String :=
  signed x fun m e => if m = 0 then "0" else (shortest m e).positional

end LSystem.Decimal
