import LSystem.Canvas

/-!
The glyph ramp: glyphs from the densest, for black, to the sparsest, for white. A canvas becomes
text by writing for each pixel the glyph of its gray level.
-/

namespace LSystem

/-- Glyphs from dark to light. -/
structure GlyphRamp where
  glyphs : Array Char
  enough : 10 ≤ glyphs.size

namespace GlyphRamp

def leastSize : Nat := 10

def size (r : GlyphRamp) : Nat := r.glyphs.size

theorem size_pos (r : GlyphRamp) : 0 < r.size := Nat.lt_of_lt_of_le (by decide) r.enough

/-- The ramp of the characters of a text, if there are enough. -/
def ofString? (s : String) : Option GlyphRamp :=
  let glyphs := s.toList.toArray
  if h : 10 ≤ glyphs.size then some ⟨glyphs, h⟩ else none

/-- The glyphs of the built-in ramp; the lightest is a blank. -/
def standardGlyphs : String :=
  "$@B%8&WM#*oahkbdpqwmZO0QLCJUYXzcvunxrjft/\\|()1\x7b\x7d[]?-_+~<>i!lI;:,\"^\x60 "

def standard : GlyphRamp where
  glyphs := standardGlyphs.toList.toArray
  enough := by decide

/-- The place of a gray level on the ramp, 0 being black and 255 white. -/
def indexOfGray (r : GlyphRamp) (gray : Nat) : Nat := gray * (r.size - 1) / 255

/-- The glyph at a place, or the lightest beyond the end. -/
def glyph (r : GlyphRamp) (i : Nat) : Char :=
  have inside : min i (r.size - 1) < r.glyphs.size := by
    have pos := r.size_pos
    show min i (r.size - 1) < r.size
    omega
  r.glyphs[min i (r.size - 1)]

def glyphOfGray (r : GlyphRamp) (gray : Nat) : Char := r.glyph (r.indexOfGray gray)

end GlyphRamp

/-- Text with one line for each row of pixels. -/
structure TextImage where
  rows : List String
deriving DecidableEq

namespace TextImage

def height (t : TextImage) : Nat := t.rows.length

/-- Number of glyphs in a line; all lines are equally long. -/
def width (t : TextImage) : Nat := (t.rows.head?.map String.length).getD 0

def text (t : TextImage) : String := "\n".intercalate t.rows

end TextImage

/-- The canvas in glyphs. A canvas without columns has no lines. -/
def Canvas.inGlyphs (c : Canvas) (r : GlyphRamp) : TextImage where
  rows :=
    if c.width = 0 then []
    else (List.range c.height).map fun y =>
      String.ofList ((c.row y).map fun p => r.glyphOfGray p.gray)

end LSystem
