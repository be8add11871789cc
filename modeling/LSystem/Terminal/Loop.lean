import LSystem.Terminal.Decoder
import LSystem.Terminal.Painter

/-!
The loop that runs an application on a terminal. Whenever something has changed the application
is painted and the changes are sent. Then the loop waits. The events among the bytes that arrive
go to the application one by one, until it quits; bytes that make no event within a while are
taken for keys of their own.
-/

namespace LSystem.Terminal

structure Size where
  width : Nat
  height : Nat
deriving DecidableEq, Repr

def Frame.size (f : Frame) : Size := ⟨f.width, f.height⟩

structure App (σ : Type) where
  /-- What an event does, and whether the program quits at it. -/
  respond : σ → Event → σ × Bool
  resized : σ → Size → σ
  paint : σ → Frame → Frame
  size_paint : ∀ s f, (paint s f).size = f.size

/-- Hands over events in order, up to and with the one at which the program quits. -/
def App.deliver {σ : Type} (app : App σ) : σ → List Event → σ × Bool
  | s, [] => (s, false)
  | s, e :: events =>
    match app.respond s e with
    | (s, true) => (s, true)
    | (s, false) => app.deliver s events

inductive Arrival where
  | bytes (bytes : List UInt8)
  /-- Nothing, for as long as a sequence is waited for. -/
  | silence

namespace Decoder

/-- Decodes what has arrived. In silence the bytes that wait stand for themselves. -/
def receive (d : Decoder) : Arrival → List Event × Decoder
  | .bytes bytes => d.feed bytes
  | .silence => if d.pending = [] then ([], d) else (d.flush, fresh)

end Decoder

/-- What happens while the loop waits: what arrives, and the screen's new size if it gets one. -/
structure Wait where
  arrival : Arrival
  size : Option Size

def Wait.bytes (bytes : List UInt8) : Wait := ⟨.bytes bytes, none⟩

structure Loop (σ : Type) where
  state : σ
  decoder : Decoder
  painter : Painter
  frame : Frame
  /-- Whether the state may have changed since it was painted. -/
  dirty : Bool

namespace Loop

structure Ending (σ : Type) where
  output : String
  loop : Loop σ
  /-- Whether the program quit; otherwise the input ended. -/
  quit : Bool

variable {σ : Type}

def start (app : App σ) (state : σ) (size : Size) : Loop σ where
  state := app.resized state size
  decoder := .fresh
  painter := .fresh
  frame := .blank size.width size.height
  dirty := true

/-- Brings the screen up to date. Gives what is to be sent for that. -/
def refresh (app : App σ) (l : Loop σ) : Loop σ × String :=
  if l.dirty then
    let frame := app.paint l.state l.frame.clear
    let (painter, output) := (l.painter.render frame).1.flush
    ({ l with painter, frame, dirty := false }, output)
  else (l, "")

/-- Another size of the screen: nothing of it is known any more. -/
def resize (app : App σ) (l : Loop σ) (size : Size) : Loop σ :=
  { l with
    state := app.resized l.state size
    painter := l.painter.forget
    frame := l.frame.resize size.width size.height
    dirty := true }

/-- Takes what has happened during a wait. Tells also whether the program quits. -/
def take (app : App σ) (l : Loop σ) (wait : Wait) : Loop σ × Bool :=
  let (events, decoder) := l.decoder.receive wait.arrival
  match app.deliver l.state events with
  | (state, true) => ({ l with state, decoder }, true)
  | (state, false) =>
    let l := { l with state, decoder, dirty := l.dirty || !events.isEmpty }
    (wait.size.elim l (l.resize app), false)

def run (app : App σ) (l : Loop σ) : List Wait → Ending σ
  | [] =>
    let (l, output) := l.refresh app
    { output, loop := l, quit := false }
  | wait :: waits =>
    let (l, output) := l.refresh app
    match l.take app wait with
    | (l, true) => { output, loop := l, quit := true }
    | (l, false) =>
      let ending := l.run app waits
      { ending with output := output ++ ending.output }

end Loop

end LSystem.Terminal
