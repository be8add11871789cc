import LSystem.Rules

/-!
A fractal: a name, a seed word, the turn angle it looks best with, and its rules.
Every edit that changes the content raises the revision by one, modulo 2^64; an edit that
does not apply is refused with `none`.
-/

namespace LSystem

structure Fractal where
  name : String
  /-- The word that generation 0 consists of. -/
  seed : String
  /-- Turn angle in degrees, selected when the fractal is shown. -/
  angle : Int
  rules : Rules
  /-- Counts the edits; it wraps around. -/
  revision : UInt64
deriving DecidableEq

/-- The text without its last character, or `none` when it is empty. -/
def dropLast? (s : String) : Option String :=
  if s.isEmpty then none else some (String.ofList s.toList.dropLast)

namespace Fractal

def new (name seed : String) (angle : Int) (rules : Rules) : Fractal :=
  { name, seed, angle, rules, revision := 0 }

/-- A new fractal with the same seed and angle and with the committed rules. -/
def copyAs (f : Fractal) (name : String) : Fractal :=
  new name f.seed f.angle f.rules.committed

def edited (f : Fractal) : Fractal := { f with revision := f.revision + 1 }

def pushName (f : Fractal) (c : Char) : Fractal := edited { f with name := f.name.push c }

/-- Shortens the name; refused when it is empty. -/
def popName? (f : Fractal) : Option Fractal :=
  (dropLast? f.name).map fun name => edited { f with name }

def pushSeed (f : Fractal) (c : Char) : Fractal := edited { f with seed := f.seed.push c }

def popSeed? (f : Fractal) : Option Fractal :=
  (dropLast? f.seed).map fun seed => edited { f with seed }

/-- Opens a pending rule after the last one; refused when one is pending. -/
def openRule? (f : Fractal) : Option Fractal :=
  (f.rules.append? Rules.pendingSymbol "").map fun rules => edited { f with rules }

/-- Drops the pending rule; refused when none is pending. -/
def dropPending? (f : Fractal) : Option Fractal :=
  if f.rules.hasPending then
    some (edited { f with rules := f.rules.erase Rules.pendingSymbol })
  else none

def dropPending (f : Fractal) : Fractal := f.dropPending?.getD f

/-- Names the rule at position `i`; see `Rules.rename?`. Its own symbol counts as no edit. -/
def renameRule? (f : Fractal) (i : Nat) (symbol : Char) : Option Fractal :=
  (f.rules.rename? i symbol).map fun rules =>
    if (f.rules.nth? i).map Prod.fst = some symbol then f else edited { f with rules }

/-- Appends to the replacement of the rule at position `i`; refused without such a rule. -/
def pushValue? (f : Fractal) (i : Nat) (c : Char) : Option Fractal :=
  (f.rules.value? i).map fun _ =>
    edited { f with rules := f.rules.modifyValue i (·.push c) }

/-- Shortens the replacement of the rule at position `i`; refused without such a rule and
when the replacement is empty. -/
def popValue? (f : Fractal) (i : Nat) : Option Fractal :=
  (f.rules.value? i).bind dropLast? |>.map fun shorter =>
    edited { f with rules := f.rules.modifyValue i fun _ => shorter }

end Fractal

end LSystem
