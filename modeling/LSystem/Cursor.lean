import LSystem.Expansion
import LSystem.Fractal

/-!
The edit cursor. A fractal is edited row by row: the name, the seed, then one row for each rule.
On a rule's row the cursor is on its symbol or on its replacement. Moving down from the last row
opens a pending rule; moving up drops it.
-/

namespace LSystem

inductive Field where
  | name
  | seed
  | symbol (rule : Nat)
  | value (rule : Nat)
deriving DecidableEq, Repr

/-- A row, and which half of a rule's row. -/
structure Cursor where
  row : Nat := 0
  onSymbol : Bool := false
deriving DecidableEq, Repr

namespace Cursor

def nameRow : Nat := 0

def seedRow : Nat := 1

def firstRuleRow : Nat := 2

def lastRow (f : Fractal) : Nat := seedRow + f.rules.size

/-- What the cursor is on, or `none` when the fractal has no such row. -/
def field? (c : Cursor) (f : Fractal) : Option Field :=
  match c.row with
  | 0 => some .name
  | 1 => some .seed
  | rule + 2 =>
    if f.rules.size ≤ rule then none
    else some (if c.onSymbol then .symbol rule else .value rule)

/-- One row down. Below the last row a pending rule is opened and the cursor is on its symbol;
with a rule pending already the cursor stays in the last row. -/
def moveDown (c : Cursor) (f : Fractal) : Cursor × Fractal :=
  if c.row + 1 ≤ lastRow f then ({ c with row := c.row + 1 }, f)
  else match f.openRule? with
    | some opened => ({ row := lastRow f + 1, onSymbol := true }, opened)
    | none => ({ c with row := lastRow f }, f)

/-- One row up, at most to the name. A pending rule is dropped. -/
def moveUp (c : Cursor) (f : Fractal) : Cursor × Fractal :=
  let kept := f.dropPending
  ({ c with row := min (c.row - 1) (lastRow kept) }, kept)

/-- To row `row`, or to the last one if there is no such row. -/
def enter (c : Cursor) (f : Fractal) (row : Nat) : Cursor :=
  { c with row := min row (lastRow f) }

def toSymbol (c : Cursor) : Cursor := { c with onSymbol := true }

def toValue (c : Cursor) : Cursor := { c with onSymbol := false }

def toggle (c : Cursor) : Cursor := { c with onSymbol := !c.onSymbol }

def isTypable (ch : Char) : Bool := ' ' ≤ ch && ch ≤ '~'

/-- Types a character, as a capital. A text field grows by it. A rule's symbol becomes it, unless
it is the blank or another rule's symbol, and the cursor goes on to the replacement. `none`
when it is refused. -/
def type? (c : Cursor) (f : Fractal) (ch : Char) : Option (Cursor × Fractal) :=
  if isTypable ch then
    let ch := ch.toUpper
    match c.field? f with
    | some .name => some (c, f.pushName ch)
    | some .seed => some (c, f.pushSeed ch)
    | some (.value rule) => (f.pushValue? rule ch).map fun f => (c, f)
    | some (.symbol rule) =>
      if ch = Rules.pendingSymbol then none
      else (f.renameRule? rule ch).map fun f => (c.toValue, f)
    | none => none
  else none

/-- Deletes backward. A text field loses its last character. A rule's symbol is taken away,
which makes the rule the pending one. `none` when there is nothing to delete, or when a rule is
pending already. -/
def erase? (c : Cursor) (f : Fractal) : Option (Cursor × Fractal) :=
  match c.field? f with
  | some .name => f.popName?.map fun f => (c, f)
  | some .seed => f.popSeed?.map fun f => (c, f)
  | some (.value rule) => (f.popValue? rule).map fun f => (c, f)
  | some (.symbol rule) =>
    if (f.rules.nth? rule).map Prod.fst = some Rules.pendingSymbol then none
    else (f.renameRule? rule Rules.pendingSymbol).map fun f => (c, f)
  | none => none

def previewRounds : Nat := 2

/-- The mark in front of a row: `>` where the cursor is. -/
def mark (c : Cursor) (row : Nat) : String := if c.row = row then ">" else " "

/-- The rows of the fields, the cursor's marked. -/
def fieldLines (c : Cursor) (f : Fractal) : List String :=
  (c.mark nameRow ++ "Name: " ++ f.name) ::
  (c.mark seedRow ++ "Axiom: " ++ f.seed) ::
  f.rules.entries.mapIdx fun i e =>
    c.mark (firstRuleRow + i) ++ e.1.toString ++ " -> " ++ e.2

/-- The seed and its first generations, then the rows of the fields. -/
def preview (c : Cursor) (f : Fractal) : List String :=
  (List.range (previewRounds + 1)).map (expand f.seed f.rules) ++ c.fieldLines f

end Cursor

end LSystem
