import LSystem.Session

/-! Drawing keeps the size of the canvas, so the picture has as many lines as were asked for. -/

namespace LSystem

namespace Canvas

variable {α : Type} [Coordinate α]

def size (c : Canvas) : Nat × Nat := (c.width, c.height)

theorem size_modify (c : Canvas) (x y : Nat) (f : Pixel → Pixel) : (c.modify x y f).size = c.size := by
  simp [size]

theorem size_foldl {β : Type} {step : Canvas → β → Canvas} (keeps : ∀ c b, (step c b).size = c.size)
    (items : List β) (c : Canvas) : (items.foldl step c).size = c.size := by
  induction items generalizing c with
  | nil => rfl
  | cons b items ih => simp [ih, keeps]

theorem size_darken (c : Canvas) (d : Dot α) : (c.darken d).size = c.size := by
  unfold darken
  split
  · rfl
  · exact size_modify ..

theorem size_stroke (stretch : α) (c : Canvas) (s : Segment α) :
    (c.stroke stretch s).size = c.size := by
  unfold stroke
  dsimp only
  split
  · exact size_foldl size_darken _ c
  · rfl

end Canvas

namespace Session

theorem size_canvas (s : Session) (width height : Nat) :
    (s.canvas width height).size = (width, height) := by
  rw [canvas, Turtle.walk_eq_foldl_trace]
  exact Canvas.size_foldl (Canvas.size_stroke s.settings.stretch) _ _

theorem length_frame {width : Nat} (s : Session) (wide : 1 ≤ width) (height : Nat) :
    (s.frame width height).rows.length = height := by
  obtain ⟨columns, rows⟩ := Prod.mk.inj (s.size_canvas width height)
  have some : (s.canvas width height).width ≠ 0 := by omega
  simp [frame, Canvas.inGlyphs, some, rows]

end Session

end LSystem
