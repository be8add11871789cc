/-!
What a terminal reports: keys, with the modifier keys held down, and pasted text.
-/

namespace LSystem.Terminal

inductive Key where
  | char (ch : Char)
  | enter
  | tab
  | backspace
  | escape
  | delete
  | up
  | down
  | left
  | right
  | home
  | endKey
deriving DecidableEq, Repr

structure Modifiers where
  shift : Bool := false
  alt : Bool := false
  ctrl : Bool := false
deriving DecidableEq, Repr

namespace Modifiers

/-- The modifiers whose bits are set: 1 for Shift, 2 for Alt, 4 for Ctrl. -/
def ofMask (mask : Nat) : Modifiers where
  shift := mask.testBit 0
  alt := mask.testBit 1
  ctrl := mask.testBit 2

def mask (m : Modifiers) : Nat :=
  (if m.shift then 1 else 0) + (if m.alt then 2 else 0) + if m.ctrl then 4 else 0

theorem ofMask_mask (m : Modifiers) : ofMask m.mask = m := by
  obtain ⟨_ | _, _ | _, _ | _⟩ := m <;> rfl

end Modifiers

inductive Event where
  | key (key : Key) (modifiers : Modifiers)
  | paste (text : String)
deriving DecidableEq, Repr

namespace Event

def press (k : Key) : Event := .key k {}

/-- Whether the event is a character typed with Ctrl held down. -/
def isCtrl (ch : Char) : Event → Bool
  | .key (.char c) m => c == ch && m.ctrl
  | _ => false

end Event

end LSystem.Terminal
