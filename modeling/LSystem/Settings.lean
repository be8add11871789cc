import LSystem.Decimal.Shortest
import LSystem.GlyphRamp

/-!
The settings of a session, their built-in values, and what makes them invalid.
-/

namespace LSystem

structure Settings where
  ramp : GlyphRamp := .standard
  /-- Horizontal stretch. A terminal cell is about twice as high as it is wide. -/
  stretch : Float := 2.0
  /-- Largest generation that is built, in bytes. -/
  limit : Nat := 4000000
  iterations : Nat := 5
  length : Float := 1.0

inductive SettingsError where
  | rampTooShort (size : Nat)
  | badLength (length : Float)
  | badStretch (stretch : Float)
  | zeroLimit

namespace SettingsError

def message : SettingsError → String
  | rampTooShort size =>
    "glyph ramp needs at least " ++ toString GlyphRamp.leastSize ++ " symbols, got " ++
      toString size
  | badLength length =>
    "segment length must be a positive finite number, got " ++ Decimal.text length
  | badStretch stretch =>
    "horizontal stretch must be a positive finite number, got " ++ Decimal.text stretch
  | zeroLimit => "expansion limit must be at least 1"

end SettingsError

/-- The ramp of a text, or the complaint that it is too short. -/
def GlyphRamp.ofString (s : String) : Except SettingsError GlyphRamp :=
  match ofString? s with
  | some ramp => .ok ramp
  | none => .error (.rampTooShort s.length)

namespace Settings

/-- Whether a value is finite and above zero. -/
def isPositive (x : Float) : Bool := x.isFinite && 0.0 < x

/-- The first complaint about the numbers: the length, then the stretch, then the limit. -/
def check (s : Settings) : Except SettingsError Unit :=
  if !isPositive s.length then .error (.badLength s.length)
  else if !isPositive s.stretch then .error (.badStretch s.stretch)
  else if s.limit = 0 then .error .zeroLimit
  else .ok ()

end Settings

end LSystem
