/-!
The canvas: a grid of pixels, row after row. Its one change is to modify the pixel at a position;
positions outside the grid have no pixel.
-/

namespace LSystem

structure Pixel where
  red : UInt8
  green : UInt8
  blue : UInt8
deriving DecidableEq, Repr, Inhabited

namespace Pixel

def white : Pixel := ⟨255, 255, 255⟩

def map (f : UInt8 → UInt8) (p : Pixel) : Pixel := ⟨f p.red, f p.green, f p.blue⟩

/-- The perceived gray level, in hundredths 30, 59 and 11 of the channels, truncated. -/
def gray (p : Pixel) : Nat :=
  (30 * p.red.toNat + 59 * p.green.toNat + 11 * p.blue.toNat) / 100

end Pixel

structure Canvas where
  width : Nat
  height : Nat
  pixels : Array Pixel
  size_eq : pixels.size = width * height

namespace Canvas

def filled (width height : Nat) (p : Pixel) : Canvas where
  width
  height
  pixels := Array.replicate (width * height) p
  size_eq := Array.size_replicate

def blank (width height : Nat) : Canvas := filled width height .white

/-- A canvas whose pixel at position `i`, counted row after row, is `f i`. -/
def ofFn (width height : Nat) (f : Nat → Pixel) : Canvas where
  width
  height
  pixels := Array.ofFn fun i : Fin (width * height) => f i
  size_eq := Array.size_ofFn

def get? (c : Canvas) (x y : Nat) : Option Pixel :=
  if x < c.width ∧ y < c.height then c.pixels[y * c.width + x]? else none

/-- Changes the pixel in column `x` of row `y`, if there is one. -/
def modify (c : Canvas) (x y : Nat) (f : Pixel → Pixel) : Canvas :=
  let { width, height, pixels, size_eq } := c
  if x < width ∧ y < height then
    { width, height
      pixels := pixels.modify (y * width + x) f
      size_eq := by rw [Array.size_modify, size_eq] }
  else { width, height, pixels, size_eq }

@[simp] theorem width_modify (c : Canvas) (x y : Nat) (f : Pixel → Pixel) :
    (c.modify x y f).width = c.width := by
  unfold modify
  dsimp only
  split <;> rfl

@[simp] theorem height_modify (c : Canvas) (x y : Nat) (f : Pixel → Pixel) :
    (c.modify x y f).height = c.height := by
  unfold modify
  dsimp only
  split <;> rfl

def row (c : Canvas) (y : Nat) : List Pixel :=
  (c.pixels.extract (y * c.width) ((y + 1) * c.width)).toList

end Canvas

end LSystem
