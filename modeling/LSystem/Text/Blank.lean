import LSystem.Text.Ranges

/-!
Blank characters: those with the Unicode property White_Space, which a reader of numbers skips
on both sides.
-/

namespace LSystem.Text

/-- The code points of blank characters. -/
def blanks : Ranges := [
  (0x9, 0xD), (0x20, 0x20), (0x85, 0x85), (0xA0, 0xA0), (0x1680, 0x1680), (0x2000, 0x200A),
  (0x2028, 0x2029), (0x202F, 0x202F), (0x205F, 0x205F), (0x3000, 0x3000)]

theorem ascending_blanks : blanks.ascending = true := by decide

/-- Every blank of ASCII is among them. -/
theorem contains_blanks_of_isWhitespace {c : Char} (blank : c.isWhitespace = true) :
    blanks.contains c.toNat = true := by
  simp only [Char.isWhitespace, Bool.or_eq_true, decide_eq_true_eq] at blank
  rcases blank with ((rfl | rfl) | rfl) | rfl <;> decide

def isBlank (c : Char) : Bool := blanks.contains c.toNat

/-- A text without the blanks before and after it. -/
def trim (s : List Char) : List Char :=
  ((s.dropWhile isBlank).reverse.dropWhile isBlank).reverse

end LSystem.Text
