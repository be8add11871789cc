/-!
One position of a terminal screen: a character and how it is shown.
-/

namespace LSystem.Terminal

/-- A set of display attributes, one in each bit. Bits without a meaning are kept. -/
structure Attrs where
  bits : UInt8
deriving DecidableEq, Repr

namespace Attrs

def plain : Attrs := ⟨0⟩

def bold : Attrs := ⟨1⟩

def dim : Attrs := ⟨2⟩

def underline : Attrs := ⟨4⟩

def inverse : Attrs := ⟨8⟩

instance : Inhabited Attrs := ⟨plain⟩

def contains (a b : Attrs) : Bool := a.bits &&& b.bits == b.bits

def union (a b : Attrs) : Attrs := ⟨a.bits ||| b.bits⟩

end Attrs

/-- What is at one position. A character of two columns is followed by a cell without a
character of its own. -/
structure Cell where
  /-- The character; none where the one before it reaches over. -/
  glyph : Option Char
  attrs : Attrs
deriving DecidableEq, Repr

namespace Cell

def empty : Cell := ⟨some ' ', .plain⟩

instance : Inhabited Cell := ⟨empty⟩

/-- The second column of a wide character. -/
def continuation (attrs : Attrs) : Cell := ⟨none, attrs⟩

def isContinuation (c : Cell) : Bool := c.glyph.isNone

end Cell

end LSystem.Terminal
