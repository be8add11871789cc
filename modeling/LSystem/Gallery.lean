import LSystem.Fractal

/-!
The gallery: the fractals that a session can show. It is never empty, entries are never
removed, and new ones are appended.
-/

namespace LSystem

structure Gallery where
  fractals : List Fractal
  nonempty : fractals ≠ []
deriving DecidableEq

namespace Gallery

def ofList? (fractals : List Fractal) : Option Gallery :=
  if h : fractals = [] then none else some ⟨fractals, h⟩

/-- The built-in gallery: a branching plant, the dragon curve and the arrowhead curve. -/
def seeded : Gallery where
  fractals := [
    .new "Roślinka" "X" 25 (.ofPairs [('X', "F+[[X]-X]-F[-FX]+X)"), ('F', "FF")]),
    .new "Smok" "F" 90 (.ofPairs [('F', "F+G"), ('G', "F-G")]),
    .new "Sierpiński" "A" 60 (.ofPairs [('A', "B-A-B"), ('B', "A+B+A")])]
  nonempty := List.cons_ne_nil _ _

instance : Inhabited Gallery := ⟨seeded⟩

def size (g : Gallery) : Nat := g.fractals.length

theorem size_pos (g : Gallery) : 0 < g.size := List.length_pos_iff.mpr g.nonempty

def get? (g : Gallery) (i : Nat) : Option Fractal := g.fractals[i]?

instance : GetElem Gallery Nat Fractal fun g i => i < g.size where
  getElem g i h := g.fractals.get ⟨i, h⟩

def modify (g : Gallery) (i : Nat) (f : Fractal → Fractal) : Gallery where
  fractals := g.fractals.modify i f
  nonempty := by
    have pos := g.size_pos
    intro none
    have len := congrArg List.length none
    simp only [List.length_modify, List.length_nil] at len
    simp only [size] at pos
    omega

/-- Appends a fractal. Its position is the old size. -/
def push (g : Gallery) (f : Fractal) : Gallery where
  fractals := g.fractals ++ [f]
  nonempty := by simp

@[simp] theorem size_modify (g : Gallery) (i : Nat) (f : Fractal → Fractal) :
    (g.modify i f).size = g.size := by
  simp [size, modify]

@[simp] theorem size_push (g : Gallery) (f : Fractal) : (g.push f).size = g.size + 1 := by
  simp [size, push]

/-- The position after `i`, wrapping to the first. -/
def next (g : Gallery) (i : Nat) : Nat := if g.size ≤ i + 1 then 0 else i + 1

/-- The position before `i`, wrapping to the last. -/
def previous (g : Gallery) (i : Nat) : Nat :=
  if i = 0 ∨ g.size < i then g.size - 1 else i - 1

theorem next_lt (g : Gallery) (i : Nat) : g.next i < g.size := by
  have pos := g.size_pos
  unfold next
  split <;> omega

theorem previous_lt (g : Gallery) (i : Nat) : g.previous i < g.size := by
  have pos := g.size_pos
  unfold previous
  split <;> omega

end Gallery

end LSystem
