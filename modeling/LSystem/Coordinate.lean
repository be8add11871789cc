import LSystem.Binary64.MulAdd

/-!
The numbers that drawing computes with. Lines are drawn over any `Coordinate` type: over binary64
values when the viewer runs, and over exact rationals when only the geometry matters.
-/

namespace LSystem

/-- Arithmetic and comparisons for drawing. Comparisons are decided, so that a value that is
not a number can make both `lt a b` and `lt b a` false. -/
class Coordinate (α : Type) extends Add α, Sub α, Mul α, Div α, Neg α where
  ofNat : Nat → α
  half : α
  eq : α → α → Bool
  lt : α → α → Bool
  le : α → α → Bool
  abs : α → α
  floor : α → α
  /-- The product of the first two plus the third, rounded at most once. -/
  mulAdd : α → α → α → α
  isFinite : α → Bool
  /-- The whole part as a natural number: 0 for all that is not positive, and capped. -/
  toNat : α → Nat
  /-- A colour channel times a factor, rounded to the nearest integer, halves upward. -/
  fade : UInt8 → α → UInt8

scoped instance Coordinate.instOfNat {α : Type} [Coordinate α] (n : Nat) : OfNat α n :=
  ⟨Coordinate.ofNat n⟩

instance : Coordinate Float where
  ofNat n := Float.ofNat n
  half := 0.5
  eq a b := a == b
  lt a b := a < b
  le a b := a ≤ b
  abs a := a.abs
  floor a := a.floor
  mulAdd := Binary64.mulAdd
  isFinite a := a.isFinite
  toNat a := a.toUInt64.toNat
  fade channel factor := (channel.toFloat * factor).round.toUInt8

instance : Coordinate Rat where
  ofNat n := n
  half := 1 / 2
  eq a b := a = b
  lt a b := a < b
  le a b := a ≤ b
  abs a := if a < 0 then -a else a
  floor a := a.floor
  mulAdd a b c := a * b + c
  isFinite _ := true
  toNat a := a.floor.toNat
  fade channel factor := UInt8.ofNat ((channel.toNat * factor + 1 / 2).floor.toNat)

/-- A point of the plane; `y` grows downward. -/
structure Point (α : Type) where
  x : α
  y : α
deriving Repr

def Point.flip {α : Type} (p : Point α) : Point α := ⟨p.y, p.x⟩

structure Segment (α : Type) where
  start : Point α
  stop : Point α
deriving Repr

end LSystem
