import LSystem.Text.Escaped

/-!
Quoted text, as it is shown in messages: between double quotes, with the characters that could
not be read there written as escapes.
-/

namespace LSystem.Text

/-- A character by its number: `\u`, then the number in base sixteen between braces. -/
def escapeByNumber (c : Char) : List Char :=
  ['\\', 'u', '\x7b'] ++ Nat.toDigits 16 c.toNat ++ ['\x7d']

/-- How a character is written between the quotes. -/
def escape (c : Char) : List Char :=
  if c = '\x00' then ['\\', '0']
  else if c = '\t' then ['\\', 't']
  else if c = '\r' then ['\\', 'r']
  else if c = '\n' then ['\\', 'n']
  else if c = '\\' ∨ c = '"' then ['\\', c]
  else if escaped.contains c.toNat then escapeByNumber c
  else [c]

/-- The text between double quotes. -/
def quoted (s : List Char) : String := String.ofList ('"' :: s.flatMap escape ++ ['"'])

end LSystem.Text
