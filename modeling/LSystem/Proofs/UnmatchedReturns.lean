import LSystem.Proofs.BranchMeaning
import Mathlib.Order.Bounds.Basic

/-! Returns that find nothing saved. They may be taken out of the word, and their number is how far the
`]` get ahead of the `[` at most. One equation carries the count: behind every symbol the turtle's
depth is what was opened less what was closed, with each return that found nothing given back. -/

namespace LSystem.Turtle

variable {g : Gait} {t : Turtle} {symbol : Char}

def uncounted (t : Turtle) : Turtle := { t with underflows := 0 }

/-- The word without each `]` that finds nothing saved when the turtle walks along it. -/
def heeded (g : Gait) : Turtle → List Char → List Char
  | _, [] => []
  | t, symbol :: word =>
    let rest := heeded g (obey g t symbol).1 word
    if symbol = ']' ∧ t.saved = [] then rest else symbol :: rest

theorem obey_vain (vain : t.saved = []) :
    obey g t ']' = ({ t with underflows := t.underflows + 1 }, none) := by
  simp [obey, vain]

theorem exists_opened (heeds : ¬ (symbol = ']' ∧ t.saved = [])) :
    ∃ depth, opened t.depth symbol = some depth := by
  unfold opened
  by_cases closing : symbol = ']'
  · have held : t.depth ≠ 0 := fun none => heeds ⟨closing, List.eq_nil_of_length_eq_zero none⟩
    simp [closing, held]
  · by_cases opening : symbol = '['
    · simp [opening]
    · simp [opening, closing]

theorem obey_uncounted (heeds : ¬ (symbol = ']' ∧ t.saved = [])) :
    obey g t.uncounted symbol = ((obey g t symbol).1.uncounted, (obey g t symbol).2) := by
  obtain ⟨pose, saved, underflows⟩ := t
  unfold obey
  split
  · rfl
  · rfl
  · rfl
  · cases saved with
    | nil => exact absurd ⟨rfl, rfl⟩ heeds
    | cons last saved => rfl
  · rfl

/-- Without the returns that find nothing the walk draws the same and ends in the same way. -/
theorem trace_heeded (g : Gait) (t : Turtle) (word : List Char) :
    trace g t.uncounted (heeded g t word) = ((trace g t word).1, (trace g t word).2.uncounted) := by
  induction word generalizing t with
  | nil => rfl
  | cons symbol word ih =>
    have rest := ih (obey g t symbol).1
    by_cases vain : symbol = ']' ∧ t.saved = []
    · obtain ⟨rfl, empty⟩ := vain
      have skipped : heeded g t (']' :: word) = heeded g (obey g t ']').1 word := by
        simp [heeded, empty]
      have same : (obey g t ']').1.uncounted = t.uncounted := by simp [obey_vain empty, uncounted]
      rw [skipped, ← same, rest]
      simp [trace, obey_vain empty]
    · have kept : heeded g t (symbol :: word) = symbol :: heeded g (obey g t symbol).1 word := by
        simp [heeded, vain]
      rw [kept]
      simp only [trace, obey_uncounted vain, rest]

theorem obey_counts (g : Gait) (t : Turtle) (symbol : Char) :
    (obey g t symbol).1.depth + [symbol].count ']' + t.underflows =
      t.depth + [symbol].count '[' + (obey g t symbol).1.underflows := by
  by_cases vain : symbol = ']' ∧ t.saved = []
  · obtain ⟨rfl, empty⟩ := vain
    simp [obey_vain empty, depth, empty, Nat.add_comm]
  · obtain ⟨depth, opens⟩ := exists_opened vain
    obtain ⟨deep, same⟩ := obey_opened (g := g) opens
    have counts := count_of_opened opens
    omega

/-- What is saved behind a word, from what the word opens and closes. -/
theorem trace_counts (g : Gait) (t : Turtle) (word : List Char) :
    (trace g t word).2.depth + word.count ']' + t.underflows =
      t.depth + word.count '[' + (trace g t word).2.underflows := by
  induction word generalizing t with
  | nil => simp [trace]
  | cons symbol word ih =>
    have first := obey_counts g t symbol
    have rest := ih (obey g t symbol).1
    rw [← List.singleton_append, List.count_append, List.count_append]
    simp only [List.singleton_append, trace]
    omega

theorem underflows_obey (g : Gait) (t : Turtle) (symbol : Char) :
    (obey g t symbol).1.underflows = t.underflows ∨
      (obey g t symbol).1.underflows = t.underflows + 1 ∧ (obey g t symbol).1.depth = 0 := by
  by_cases vain : symbol = ']' ∧ t.saved = []
  · obtain ⟨rfl, empty⟩ := vain
    simp [obey_vain empty, depth, empty]
  · obtain ⟨_, opens⟩ := exists_opened vain
    exact .inl (obey_opened opens).2

theorem underflows_le (g : Gait) (t : Turtle) (word : List Char) :
    t.underflows ≤ (trace g t word).2.underflows := by
  induction word generalizing t with
  | nil => simp [trace]
  | cons symbol word ih =>
    have rest := ih (obey g t symbol).1
    have first := underflows_obey g t symbol
    simp only [trace]
    omega

/-- Behind the last return that found nothing, nothing is saved: there the `]` are ahead by as many as
found nothing. -/
theorem exists_furthest (g : Gait) (pose : Pose) (word : List Char) : ∃ front, front <+: word ∧
    front.count ']' = front.count '[' + (trace g (start pose) word).2.underflows := by
  induction word using List.reverseRecOn with
  | nil => exact ⟨[], List.prefix_refl _, rfl⟩
  | append_singleton word symbol ih =>
    have goes : (trace g (start pose) (word ++ [symbol])).2 =
        (obey g (trace g (start pose) word).2 symbol).1 := by simp [trace_append, trace]
    obtain same | ⟨_, empty⟩ := underflows_obey g (trace g (start pose) word).2 symbol
    · obtain ⟨front, begins, ahead⟩ := ih
      refine ⟨front, begins.trans (List.prefix_append _ _), ?_⟩
      rw [goes, same, ahead]
    · have counts := trace_counts g (start pose) (word ++ [symbol])
      rw [goes] at counts ⊢
      refine ⟨word ++ [symbol], List.prefix_refl _, ?_⟩
      rw [empty] at counts
      simpa [start, depth] using counts

theorem ahead_le {front word : List Char} (begins : front <+: word) (g : Gait) (pose : Pose) :
    front.count ']' ≤ front.count '[' + (trace g (start pose) word).2.underflows := by
  obtain ⟨behind, rfl⟩ := begins
  have counts := trace_counts g (start pose) front
  have more := underflows_le g (trace g (start pose) front).2 behind
  rw [trace_append]
  simp only [start, depth, List.length_nil] at counts more ⊢
  omega

/-- A walk draws the same and ends in the same way, with none counted, when each `]` that finds nothing
saved is taken out of its word. Their number is the most by which the `]` are ahead of the `[` in a
beginning of the word, and given back to what the word opens and closes it gives the depth. -/
theorem pull_heeded (g : Gait) (pose : Pose) (word : List Char) :
    let strokes := (pull g (start pose) word).1
    let last := (pull g (start pose) word).2
    pull g (start pose) (heeded g (start pose) word) = (strokes, { last with underflows := 0 }) ∧
    IsGreatest {n : Int | ∃ front, front <+: word ∧ n = max 0 (front.count ']' - front.count '[' : Int)}
      last.underflows ∧
    (last.depth : Int) = word.count '[' - word.count ']' + last.underflows := by
  simp only [pull_eq_trace]
  refine ⟨trace_heeded g (start pose) word, ⟨?_, ?_⟩, ?_⟩
  · obtain ⟨front, begins, furthest⟩ := exists_furthest g pose word
    exact ⟨front, begins, by omega⟩
  · rintro _ ⟨front, begins, rfl⟩
    have ahead := ahead_le begins g pose
    omega
  · have counts := trace_counts g (start pose) word
    simp only [start, depth, List.length_nil] at counts ⊢
    omega

example (g : Gait) (pose : Pose) :
    heeded g (start pose) [']', '[', ']', ']', 'F', '['] = ['[', ']', 'F', '['] := rfl

end LSystem.Turtle
