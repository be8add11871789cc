import LSystem.Decimal.Rounded
import LSystem.Scene
import LSystem.Stroke
import LSystem.Turtle

/-!
The session: settings, a scene, and the generation that is on display. The generation is kept
together with a key and is built anew only when the key has changed. When it would be too large,
the intent that asked for it is refused and the session stays as it was.
-/

namespace LSystem

structure GenerationKey where
  selected : Nat
  revision : UInt64
  iterations : Nat
deriving DecidableEq, Repr

structure Generation where
  key : GenerationKey
  word : String

structure Session where
  settings : Settings
  scene : Scene
  generation : Generation

namespace Scene

def key (s : Scene) : GenerationKey where
  selected := s.view.selected
  revision := s.current.revision
  iterations := s.view.iterations

/-- The generation to display, built anew. -/
def generate (s : Scene) (limit : Nat) : Except Oversize Generation :=
  (expandWithin s.current.seed s.current.rules s.view.iterations limit).map fun word =>
    { key := s.key, word }

/-- The scene at first. A selection beyond the end counts on from the beginning. -/
def initial (gallery : Gallery) (settings : Settings) (selected : Nat) : Scene :=
  have inside : selected % gallery.size < gallery.size := Nat.mod_lt _ gallery.size_pos
  { gallery
    view := .initial (selected % gallery.size) gallery[selected % gallery.size].angle settings
    selected_lt := inside }

end Scene

namespace Session

/-- A session that starts at a fractal, unless its first generation is too large. -/
def start (gallery : Gallery) (settings : Settings) (selected : Nat) :
    Except Oversize Session :=
  let scene := Scene.initial gallery settings selected
  (scene.generate settings.limit).map fun generation => { settings, scene, generation }

/-- Acts on an intent. Gives the session after it and whether the generation was built anew. -/
def apply (s : Session) (i : Intent) : Session × Except Oversize Bool :=
  let scene := s.scene.act i
  if scene.key = s.generation.key then ({ s with scene }, .ok false)
  else match scene.generate s.settings.limit with
    | .ok generation => ({ s with scene, generation }, .ok true)
    | .error e => (s, .error e)

def word (s : Session) : String := s.generation.word

def preview (s : Session) : List String := s.scene.view.cursor.preview s.scene.current

def gait (s : Session) : Gait where
  turn := Float.ofInt s.scene.view.angle
  length := s.scene.view.length

/-- The turtle at first: at half the height and, before the stretch, a quarter of the width. -/
def turtle (s : Session) (width height : Nat) : Turtle :=
  .start {
    position := {
      x := Float.ofNat (width / 4) + Float.ofInt s.scene.view.panX
      y := Float.ofNat (height / 2) + Float.ofInt s.scene.view.panY }
    heading := Float.ofInt s.scene.view.heading }

def canvas (s : Session) (width height : Nat) : Canvas :=
  ((s.turtle width height).walk s.gait (Canvas.stroke s.settings.stretch)
    (.blank width height) s.word).2

def frame (s : Session) (width height : Nat) : TextImage :=
  (s.canvas width height).inGlyphs s.settings.ramp

/-- A fractal's entry in the status line; the selected one is in angle brackets. -/
def entry (selected : Bool) (f : Fractal) : String :=
  if selected then "<" ++ f.name ++ "> " else " " ++ f.name ++ "  "

/-- The status line: the fractals, the numbers of the view, and the keys. -/
def status (s : Session) : String :=
  let v := s.scene.view
  String.join (s.scene.gallery.fractals.mapIdx fun i f => entry (i = v.selected) f) ++
    "- Angle: " ++ toString v.angle ++ " (Left Right) | Iterations: " ++ toString v.iterations ++
    " (I O) | Length: " ++ Decimal.fixed 3 v.length ++ " (Up Down)" ++
    " | Quit: X | Heading: Q E | Pan: W A S D | New: R"

end Session

end LSystem
