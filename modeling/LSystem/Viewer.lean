import LSystem.Session
import LSystem.Terminal.Loop

/-!
The viewer: a session in front of a user. Keys mean different intents while a fractal is viewed
and while it is edited. From the bottom up, a painted frame has a row for the status line, one
for the last refusal, the preview of the edited fractal, and the picture.
-/

namespace LSystem

open Terminal

inductive Mode where
  /-- Letters and arrows steer the picture. -/
  | view
  /-- Keys edit the selected fractal. -/
  | edit
deriving DecidableEq, Repr

/-- A session, the mode, and the message about the last intent if it was refused. -/
structure Viewer where
  session : Session
  mode : Mode
  message : Option String

namespace Viewer

def start (session : Session) : Viewer := ⟨session, .view, none⟩

/-- Acts on an intent. A refusal becomes the message; success takes the old message away. -/
def apply (v : Viewer) (i : Intent) : Viewer :=
  let (session, outcome) := v.session.apply i
  match outcome with
  | .ok _ => { v with session, message := none }
  | .error e => { v with session, message := some e.message }

inductive Wish where
  | act (intent : Intent)
  /-- Acts on the intent and goes on to editing. -/
  | actAndEdit (intent : Intent)
  | leaveEdit
  | quit
  | nothing
deriving DecidableEq, Repr

/-- The meaning of a letter while viewing; capitals mean the same. -/
def viewLetter (ch : Char) : Wish :=
  match ch.toLower with
  | 'x' => .quit
  | 'm' => .act .nextFractal
  | 'n' => .act .previousFractal
  | 'q' => .act .headingCounterclockwise
  | 'e' => .act .headingClockwise
  | 'w' => .act .panUp
  | 'a' => .act .panLeft
  | 's' => .act .panDown
  | 'd' => .act .panRight
  | 'i' => .act .moreIterations
  | 'o' => .act .fewerIterations
  | 'r' => .actAndEdit .newFractal
  | _ => .nothing

def viewKey : Key → Wish
  | .left => .act .turnLeft
  | .right => .act .turnRight
  | .up => .act .growLength
  | .down => .act .shrinkLength
  | .char ch => viewLetter ch
  | _ => .nothing

def editKey : Key → Wish
  | .enter | .escape => .leaveEdit
  | .up => .act .cursorUp
  | .down => .act .cursorDown
  | .left => .act .editSymbol
  | .right => .act .editValue
  | .tab => .act .toggleHalf
  | .home => .act (.enterField Cursor.nameRow)
  | .backspace => .act .backspace
  | .char ch => .act (.append ch)
  | .delete | .endKey => .nothing

/-- The meaning of a key. Modifiers count only for the character that quits anywhere. -/
def wish (mode : Mode) (k : Key) (m : Modifiers) : Wish :=
  if (Event.key k m).isCtrl 'c' then .quit
  else match mode with
    | .view => viewKey k
    | .edit => editKey k

def isControl (ch : Char) : Bool := ch.toNat < 0x20 || (0x7F ≤ ch.toNat && ch.toNat < 0xA0)

/-- Pastes a text, character by character and without its control characters. Only while
editing; elsewhere a paste is ignored. -/
def paste (v : Viewer) (text : String) : Viewer :=
  match v.mode with
  | .view => v
  | .edit =>
    (text.toList.filter fun ch => !isControl ch).foldl (fun v ch => v.apply (.append ch)) v

/-- Responds to an event. Tells also whether the user quits. -/
def respond (v : Viewer) : Event → Viewer × Bool
  | .paste text => (v.paste text, false)
  | .key k m =>
    match wish v.mode k m with
    | .act i => (v.apply i, false)
    | .actAndEdit i => ({ v.apply i with mode := .edit }, false)
    | .leaveEdit => ({ v with mode := .view }, false)
    | .quit => (v, true)
    | .nothing => (v, false)

/-- The lines of the preview; there are none while viewing. -/
def preview (v : Viewer) : List String :=
  match v.mode with
  | .view => []
  | .edit => v.session.preview

/-- Paints lines into the rows from row `y` on. -/
def paintLines (f : Frame) (attrs : Attrs) : (y : Nat) → List String → Frame
  | _, [] => f
  | y, line :: lines => paintLines (f.paint 0 y line attrs) attrs (y + 1) lines

def paintStatus (v : Viewer) (f : Frame) : Frame :=
  (f.paint 0 (f.height - 1) v.session.status .inverse).fillRow (f.height - 1) .inverse

def paintMessage (v : Viewer) (f : Frame) (y : Nat) : Frame :=
  match v.message with
  | some message => f.paint 0 y message .bold
  | none => f

/-- Paints what is above row `bottom`: the last lines of the preview, as many as there is room
for, and the picture above them. -/
def paintAbove (v : Viewer) (f : Frame) (bottom : Nat) : Frame :=
  let preview := v.preview.drop (v.preview.length - bottom)
  let top := bottom - preview.length
  let f := paintLines f .plain top preview
  if top = 0 then f else paintLines f .plain 0 (v.session.frame f.width top).rows

/-- Paints all. In a frame of one row there is only the status line. -/
def paint (v : Viewer) (f : Frame) : Frame :=
  if f.width = 0 ∨ f.height = 0 then f
  else
    let painted := v.paintStatus f
    if f.height = 1 then painted
    else v.paintAbove (v.paintMessage painted (f.height - 2)) (f.height - 2)

theorem size_paintLines (attrs : Attrs) (lines : List String) (f : Frame) (y : Nat) :
    (paintLines f attrs y lines).size = f.size := by
  induction lines generalizing f y with
  | nil => rfl
  | cons line lines ih => exact ih _ _

theorem size_paintStatus (v : Viewer) (f : Frame) : (v.paintStatus f).size = f.size := rfl

theorem size_paintMessage (v : Viewer) (f : Frame) (y : Nat) :
    (v.paintMessage f y).size = f.size := by
  unfold paintMessage
  cases v.message <;> rfl

theorem size_paintAbove (v : Viewer) (f : Frame) (bottom : Nat) :
    (v.paintAbove f bottom).size = f.size := by
  simp only [paintAbove]
  split
  · exact size_paintLines ..
  · rw [size_paintLines, size_paintLines]

theorem size_paint (v : Viewer) (f : Frame) : (v.paint f).size = f.size := by
  simp only [paint]
  split
  · rfl
  · split
    · exact size_paintStatus v f
    · rw [size_paintAbove, size_paintMessage, size_paintStatus]

/-- The viewer as an application. It does not care about the screen's size until it paints. -/
def app : App Viewer where
  respond := respond
  resized v _ := v
  paint := paint
  size_paint := size_paint

def respondAll (v : Viewer) (events : List Event) : Viewer × Bool := app.deliver v events

end Viewer

end LSystem
