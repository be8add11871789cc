import LSystem.Coordinate

/-!
The turtle: it walks along a word and draws. `+` and `-` turn it, `[` saves where it is and
where it looks, `]` returns to the last saved place, and every other symbol is a step forward
that leaves a stroke. A `]` with nothing saved is counted and otherwise ignored.
-/

namespace LSystem

/-- Where the turtle is and where it looks, in degrees; 0 is to the right. -/
structure Pose where
  position : Point Float
  heading : Float

/-- What a walk needs besides the word. -/
structure Gait where
  turn : Float
  length : Float

/-- The turtle between two symbols. -/
structure Turtle where
  pose : Pose
  /-- The saved poses, the last one first. -/
  saved : List Pose
  /-- Number of returns that found nothing saved. -/
  underflows : Nat

namespace Turtle

def start (pose : Pose) : Turtle := ⟨pose, [], 0⟩

def depth (t : Turtle) : Nat := t.saved.length

/-- The circle constant over 180. -/
def radiansPerDegree : Float := 3.141592653589793 / 180.0

def ahead (g : Gait) (pose : Pose) : Point Float :=
  let angle := pose.heading * radiansPerDegree
  { x := pose.position.x + g.length * angle.cos
    y := pose.position.y + g.length * angle.sin }

def turnBy (t : Turtle) (degrees : Float) : Turtle :=
  { t with pose := { t.pose with heading := t.pose.heading + degrees } }

def obey (g : Gait) (t : Turtle) (symbol : Char) : Turtle × Option (Segment Float) :=
  match symbol with
  | '+' => (t.turnBy g.turn, none)
  | '-' => (t.turnBy (-g.turn), none)
  | '[' => ({ t with saved := t.pose :: t.saved }, none)
  | ']' =>
    match t.saved with
    | pose :: saved => ({ t with pose, saved }, none)
    | [] => ({ t with underflows := t.underflows + 1 }, none)
  | _ =>
    let position := ahead g t.pose
    ({ t with pose := { t.pose with position } }, some ⟨t.pose.position, position⟩)

/-- Walks up to and with the next stroke. Gives the stroke, if there is one, the turtle, and
the symbols that are left. -/
def next (g : Gait) : Turtle → List Char → Option (Segment Float) × Turtle × List Char
  | t, [] => (none, t, [])
  | t, symbol :: word =>
    match obey g t symbol with
    | (t, some stroke) => (some stroke, t, word)
    | (t, none) => next g t word

/-- Walks along the word and gives all strokes to `use` in order. -/
def walk {β : Type} (g : Gait) (use : β → Segment Float → β) (t : Turtle) (init : β)
    (word : String) : Turtle × β :=
  word.foldl (fun (t, b) symbol =>
    match obey g t symbol with
    | (t, some stroke) => (t, use b stroke)
    | (t, none) => (t, b)) (t, init)

/-- The strokes of a word and the turtle at its end. -/
def trace (g : Gait) : Turtle → List Char → List (Segment Float) × Turtle
  | t, [] => ([], t)
  | t, symbol :: word =>
    let (moved, stroke) := obey g t symbol
    let (strokes, last) := trace g moved word
    (stroke.toList ++ strokes, last)

theorem walk_eq_foldl_trace {β : Type} (g : Gait) (use : β → Segment Float → β) (t : Turtle)
    (init : β) (word : String) :
    walk g use t init word =
      ((trace g t word.toList).2, (trace g t word.toList).1.foldl use init) := by
  unfold walk
  rw [String.foldl_eq_foldl_toList]
  generalize word.toList = symbols
  induction symbols generalizing t init with
  | nil => rfl
  | cons symbol rest ih =>
    rw [List.foldl_cons, trace]
    rcases obeyed : obey g t symbol with ⟨moved, _ | stroke⟩
    · simp [ih, obeyed]
    · simp [ih, obeyed]

end Turtle

end LSystem
