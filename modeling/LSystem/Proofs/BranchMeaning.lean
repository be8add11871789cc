import LSystem.Proofs.Branches

/-! What a branch means. The turtle is a machine with a stack that gives one stroke at a time; all the
same a balanced word in brackets draws what it draws from where the branch begins, and the rest of
the word goes on as if it were not there. The stack below the branch carries the proof: a balanced
word neither looks at it nor changes it, so it can be laid under the turtle afterwards. -/

namespace LSystem

theorem count_of_opened {depth next : Nat} {symbol : Char} (opens : opened depth symbol = some next) :
    next + [symbol].count ']' = depth + [symbol].count '[' := by
  unfold opened at opens
  split at opens
  · next opening =>
    cases opens
    subst opening
    rfl
  · next other =>
    split at opens
    · next closing =>
      subst closing
      split at opens
      · contradiction
      · next held =>
        cases opens
        exact Nat.sub_one_add_one held
    · next inner =>
      cases opens
      rw [List.count_singleton, List.count_singleton]
      simp [other, inner]

theorem count_of_openedAll {word : List Char} {depth behind : Nat}
    (opens : openedAll depth word = some behind) :
    behind + word.count ']' = depth + word.count '[' := by
  induction word generalizing depth with
  | nil =>
    obtain rfl : depth = behind := Option.some.inj opens
    rfl
  | cons symbol word ih =>
    rw [openedAll_cons] at opens
    obtain ⟨next, first, rest⟩ := Option.bind_eq_some_iff.mp opens
    have here := count_of_opened first
    have later := ih rest
    rw [← List.singleton_append, List.count_append, List.count_append]
    omega

theorem balanced_iff_openedAll {word : List Char} : Balanced word ↔ openedAll 0 word = some 0 := by
  refine ⟨fun balanced => balanced.openedAll_eq 0, fun opens => ⟨?_, ?_⟩⟩
  · rintro front ⟨behind, rfl⟩
    rw [openedAll_append] at opens
    obtain ⟨depth, reached, _⟩ := Option.bind_eq_some_iff.mp opens
    have counts := count_of_openedAll reached
    omega
  · have counts := count_of_openedAll opens
    omega

theorem balanced_nil : Balanced [] := balanced_iff_openedAll.mpr rfl

theorem Balanced.append {u v : List Char} (first : Balanced u) (second : Balanced v) :
    Balanced (u ++ v) := by
  rw [balanced_iff_openedAll, openedAll_append, first.openedAll_eq, Option.bind_some,
    second.openedAll_eq]

theorem Balanced.bracket {w : List Char} (balanced : Balanced w) :
    Balanced ('[' :: (w ++ [']'])) := by
  rw [balanced_iff_openedAll, openedAll_cons]
  change openedAll 1 (w ++ [']']) = some 0
  rw [openedAll_append, balanced.openedAll_eq]
  rfl

theorem balanced_singleton {symbol : Char} (other : symbol ≠ '[') (inner : symbol ≠ ']') :
    Balanced [symbol] := by
  rw [balanced_iff_openedAll, openedAll_singleton, opened, if_neg other, if_neg inner]

/-- A `]` behind `before` closes the `[` behind `outer`. -/
def Encloses (outer before : List Char) : Prop :=
  ∃ inner, Balanced inner ∧ before = outer ++ '[' :: inner

theorem Encloses.snoc {outer before : List Char} {symbol : Char} (encloses : Encloses outer before)
    (other : symbol ≠ '[') (inner : symbol ≠ ']') : Encloses outer (before ++ [symbol]) := by
  obtain ⟨w, balanced, rfl⟩ := encloses
  exact ⟨w ++ [symbol], balanced.append (balanced_singleton other inner), by simp⟩

theorem Encloses.close {outer middle before : List Char} (first : Encloses outer middle)
    (second : Encloses middle before) : Encloses outer (before ++ [']']) := by
  obtain ⟨w, balanced, rfl⟩ := first
  obtain ⟨inner, closed, rfl⟩ := second
  exact ⟨w ++ '[' :: (inner ++ [']']), balanced.append closed.bracket, by simp⟩

namespace Turtle

/-- Whether a symbol makes the turtle step forward. -/
def draws (symbol : Char) : Bool := symbol ∉ ['+', '-', '[', ']']

theorem length_next_lt {g : Gait} {t moved : Turtle} {word rest : List Char}
    {stroke : Segment Float} (pulled : next g t word = (some stroke, moved, rest)) :
    rest.length < word.length := by
  induction word generalizing t with
  | nil => simp [next] at pulled
  | cons symbol word ih =>
    unfold next at pulled
    split at pulled
    · cases pulled
      exact Nat.lt_succ_self _
    · exact Nat.lt_succ_of_lt (ih pulled)

/-- Pulls one stroke after another until there is none left. Gives them, and the turtle at the
end. -/
def pull (g : Gait) (t : Turtle) (word : List Char) : List (Segment Float) × Turtle :=
  match pulled : next g t word with
  | (none, last, _) => ([], last)
  | (some stroke, moved, rest) =>
    have := length_next_lt pulled
    (stroke :: (pull g moved rest).1, (pull g moved rest).2)
termination_by word.length

theorem trace_of_next (g : Gait) (t : Turtle) (word : List Char) :
    trace g t word = match next g t word with
      | (none, last, _) => ([], last)
      | (some stroke, moved, rest) => (stroke :: (trace g moved rest).1, (trace g moved rest).2) := by
  induction word generalizing t with
  | nil => rfl
  | cons symbol word ih =>
    rw [trace, next]
    rcases obey g t symbol with ⟨moved, _ | stroke⟩
    · exact ih moved
    · rfl

theorem pull_eq_trace (g : Gait) (t : Turtle) (word : List Char) :
    pull g t word = trace g t word := by
  fun_induction pull g t word with
  | case1 t word last rest pulled => rw [trace_of_next, pulled]
  | case2 t word stroke moved rest pulled _ ih => rw [trace_of_next, pulled, ih]

theorem trace_append (g : Gait) (t : Turtle) (u v : List Char) :
    trace g t (u ++ v) =
      ((trace g t u).1 ++ (trace g (trace g t u).2 v).1, (trace g (trace g t u).2 v).2) := by
  induction u generalizing t with
  | nil => rfl
  | cons symbol u ih =>
    simp only [List.cons_append, trace, ih, List.append_assoc]

theorem isSome_obey (g : Gait) (t : Turtle) (symbol : Char) :
    (obey g t symbol).2.isSome = draws symbol := by
  unfold obey
  split
  · rfl
  · rfl
  · rfl
  · split <;> rfl
  · next plus minus opening closing =>
    have other : symbol ∉ ['+', '-', '[', ']'] := by
      simp only [List.mem_cons, List.not_mem_nil, not_or, or_false]
      exact ⟨plus, minus, opening, closing⟩
    exact (decide_eq_true other).symm

/-- There are as many strokes as symbols that are no turn and no bracket. -/
theorem length_trace (g : Gait) (t : Turtle) (word : List Char) :
    (trace g t word).1.length = word.countP draws := by
  induction word generalizing t with
  | nil => rfl
  | cons symbol word ih =>
    have first := isSome_obey g t symbol
    rw [trace, List.countP_cons, ← first]
    simp only [List.length_append, ih]
    cases (obey g t symbol).2 with
    | none => simp
    | some stroke => simp [Nat.add_comm]

/-! ### The stack below a branch -/

/-- The turtle as it were with an earlier past: more poses saved below its own, and more returns
that found nothing. -/
def withPast (t : Turtle) (below : List Pose) (count : Nat) : Turtle :=
  { t with saved := t.saved ++ below, underflows := count + t.underflows }

theorem obey_withPast {g : Gait} {t : Turtle} {symbol : Char} {depth : Nat}
    (opens : opened t.depth symbol = some depth) (below : List Pose) (count : Nat) :
    obey g (t.withPast below count) symbol =
      ((obey g t symbol).1.withPast below count, (obey g t symbol).2) := by
  obtain ⟨pose, saved, underflows⟩ := t
  unfold obey
  split
  · rfl
  · rfl
  · rfl
  · cases saved with
    | nil => contradiction
    | cons last saved => rfl
  · rfl

theorem trace_withPast {g : Gait} {t : Turtle} {word : List Char} {depth : Nat}
    (opens : openedAll t.depth word = some depth) (below : List Pose) (count : Nat) :
    trace g (t.withPast below count) word =
      ((trace g t word).1, (trace g t word).2.withPast below count) := by
  induction word generalizing t with
  | nil => rfl
  | cons symbol word ih =>
    rw [openedAll_cons] at opens
    obtain ⟨next, first, rest⟩ := Option.bind_eq_some_iff.mp opens
    rw [← (obey_opened (g := g) first).1] at rest
    simp only [trace, obey_withPast first, ih rest]

/-- A balanced word draws the same whatever the past, and leaves what was saved and counted. -/
theorem trace_balanced {w : List Char} (balanced : Balanced w) (g : Gait) (t : Turtle) :
    trace g t w = ((trace g (start t.pose) w).1,
      { t with pose := (trace g (start t.pose) w).2.pose }) := by
  have opens : openedAll (start t.pose).depth w = some 0 := balanced.openedAll_eq 0
  have past := trace_withPast (g := g) opens t.saved t.underflows
  obtain ⟨depth, underflows⟩ := trace_opened (g := g) opens
  have saved := List.eq_nil_of_length_eq_zero depth
  rw [withPast, withPast, saved, underflows] at past
  exact past

/-- A branch draws what its word draws here, and leads back. -/
theorem trace_branch {w : List Char} (balanced : Balanced w) (g : Gait) (t : Turtle) :
    trace g t ('[' :: (w ++ [']'])) = ((trace g (start t.pose) w).1, t) := by
  change trace g { t with saved := t.pose :: t.saved } (w ++ [']']) = _
  rw [trace_append, trace_balanced balanced]
  exact Prod.ext (List.append_nil _) rfl

theorem trace_around_branch {w : List Char} (balanced : Balanced w) (g : Gait) (t : Turtle)
    (u v : List Char) :
    trace g t (u ++ '[' :: (w ++ ']' :: v)) =
      ((trace g t u).1 ++ (trace g (start (trace g t u).2.pose) w).1 ++
        (trace g (trace g t u).2 v).1, (trace g t (u ++ v)).2) := by
  have parts : u ++ '[' :: (w ++ ']' :: v) = u ++ ('[' :: (w ++ [']']) ++ v) := by simp
  rw [parts, trace_append, trace_append, trace_branch balanced, trace_append, List.append_assoc]

/-! ### Where a stroke begins -/

/-- How many times a walk along the word returns to a saved pose. -/
def returns (g : Gait) : Turtle → List Char → Nat
  | _, [] => 0
  | t, symbol :: word =>
    (if symbol = ']' ∧ t.saved ≠ [] then 1 else 0) + returns g (obey g t symbol).1 word

theorem saved_encloses {g : Gait} {t : Turtle} {outer before : List Char}
    (encloses : Encloses outer before) :
    (trace g t before).2.saved = (trace g t outer).2.pose :: (trace g t outer).2.saved := by
  obtain ⟨inner, balanced, rfl⟩ := encloses
  rw [trace_append]
  generalize (trace g t outer).2 = reached
  change (trace g { reached with saved := reached.pose :: reached.saved } inner).2.saved = _
  rw [trace_balanced balanced]

theorem saved_obey_other {g : Gait} {t : Turtle} {symbol : Char} (other : symbol ≠ '[')
    (inner : symbol ≠ ']') : (obey g t symbol).1.saved = t.saved := by
  unfold obey
  split
  · rfl
  · rfl
  · contradiction
  · contradiction
  · rfl

/-- What is saved behind a word was saved by a `[` in it that is still open. -/
theorem exists_encloses (g : Gait) (pose : Pose) (before : List Char)
    (saved : (trace g (start pose) before).2.saved ≠ []) : ∃ outer, Encloses outer before := by
  induction size : before.length using Nat.strong_induction_on generalizing before with
  | _ n ih =>
    subst size
    rcases List.eq_nil_or_concat' before with rfl | ⟨front, symbol, rfl⟩
    · exact absurd rfl saved
    · have shorter : front.length < (front ++ [symbol]).length := by simp
      have goes : (trace g (start pose) (front ++ [symbol])).2 =
          (obey g (trace g (start pose) front).2 symbol).1 := by rw [trace_append]; rfl
      rw [goes] at saved
      by_cases opening : symbol = '['
      · subst opening
        exact ⟨front, [], balanced_nil, rfl⟩
      · by_cases closing : symbol = ']'
        · subst closing
          -- The `[` that this `]` closes stands behind `middle`, and the next one out is still open.
          have held : (trace g (start pose) front).2.saved ≠ [] := by
            intro empty
            rw [obey, empty] at saved
            exact saved rfl
          obtain ⟨middle, second⟩ := ih _ shorter front held rfl
          have inside : middle.length < (front ++ [']']).length := by
            obtain ⟨inner, _, rfl⟩ := second
            simp
          have still : (trace g (start pose) middle).2.saved ≠ [] := by
            rw [obey, saved_encloses second] at saved
            exact saved
          obtain ⟨outer, first⟩ := ih _ inside middle still rfl
          exact ⟨outer, first.close second⟩
        · rw [saved_obey_other opening closing] at saved
          obtain ⟨outer, encloses⟩ := ih _ shorter front saved rfl
          exact ⟨outer, encloses.snoc opening closing⟩

theorem obey_of_draws {symbol : Char} (steps : draws symbol = true) (g : Gait) (t : Turtle) :
    obey g t symbol = ({ t with pose := { t.pose with position := ahead g t.pose } },
      some ⟨t.pose.position, ahead g t.pose⟩) := by
  have some := isSome_obey g t symbol
  rw [steps] at some
  unfold obey at some ⊢
  split at some
  · contradiction
  · contradiction
  · contradiction
  · split at some <;> contradiction
  · rfl

theorem position_obey {g : Gait} {t : Turtle} {symbol : Char} (quiet : draws symbol = false)
    (stays : ¬ (symbol = ']' ∧ t.saved ≠ [])) :
    (obey g t symbol).1.pose.position = t.pose.position := by
  have none := isSome_obey g t symbol
  rw [quiet] at none
  unfold obey at none ⊢
  split at none
  · rfl
  · rfl
  · rfl
  · split
    · next pose saved found =>
      rw [found] at stays
      exact absurd ⟨rfl, List.cons_ne_nil _ _⟩ stays
    · rfl
  · contradiction

theorem position_of_quiet {g : Gait} {t : Turtle} {m : List Char}
    (quiet : ∀ symbol ∈ m, draws symbol = false) (stays : returns g t m = 0) :
    (trace g t m).2.pose.position = t.pose.position := by
  induction m generalizing t with
  | nil => rfl
  | cons symbol m ih =>
    obtain ⟨first, rest⟩ := Nat.add_eq_zero_iff.mp stays
    have still : ¬ (symbol = ']' ∧ t.saved ≠ []) := fun pops => by simp [pops] at first
    have later := ih (fun c mem => quiet c (List.mem_cons_of_mem _ mem)) rest
    exact later.trans (position_obey (quiet symbol List.mem_cons_self) still)

/-- The stroke of a symbol begins where the turtle has got to in front of it. -/
theorem getElem?_trace {symbol : Char} (steps : draws symbol = true) (g : Gait) (t : Turtle)
    (front behind : List Char) :
    (trace g t (front ++ symbol :: behind)).1[front.countP draws]? =
      some ⟨(trace g t front).2.pose.position, ahead g (trace g t front).2.pose⟩ := by
  rw [trace_append, ← length_trace g t front, List.getElem?_append_right (Nat.le_refl _),
    Nat.sub_self, trace, obey_of_draws steps]
  rfl

theorem countP_of_quiet {symbol : Char} {m : List Char} (steps : draws symbol = true)
    (front : List Char) (quiet : ∀ c ∈ m, draws c = false) :
    (front ++ symbol :: m).countP draws = front.countP draws + 1 := by
  have silent : m.countP draws = 0 := List.countP_eq_zero.mpr fun c mem => by simp [quiet c mem]
  rw [List.countP_append, List.countP_cons_of_pos steps, silent]

/-- Behind a stroke the turtle stays at its end. -/
theorem position_behind_stroke {g : Gait} {t : Turtle} {symbol : Char} {front m : List Char}
    (steps : draws symbol = true) (quiet : ∀ c ∈ m, draws c = false)
    (stays : returns g (trace g t (front ++ [symbol])).2 m = 0) :
    (trace g t (front ++ symbol :: m)).2.pose.position = ahead g (trace g t front).2.pose := by
  have last : (trace g t (front ++ [symbol])).2.pose.position = ahead g (trace g t front).2.pose := by
    rw [trace_append, trace, obey_of_draws steps]
    rfl
  rw [List.append_cons, trace_append]
  exact (position_of_quiet quiet stays).trans last

theorem position_of_return {g : Gait} {t : Turtle} {outer before m : List Char}
    (encloses : Encloses outer before) (quiet : ∀ symbol ∈ m, draws symbol = false)
    (stays : returns g (obey g (trace g t before).2 ']').1 m = 0) :
    (trace g t (before ++ ']' :: m)).2.pose.position = (trace g t outer).2.pose.position := by
  have back : (obey g (trace g t before).2 ']').1.pose = (trace g t outer).2.pose := by
    rw [obey, saved_encloses encloses]
  have rest := position_of_quiet quiet stays
  rw [trace_append]
  exact rest.trans (congrArg Pose.position back)

/-- A word along which the turtle returns has a last return. -/
theorem exists_last_return {g : Gait} {t : Turtle} {m : List Char} (some : returns g t m ≠ 0) :
    ∃ m₁ m₂, m = m₁ ++ ']' :: m₂ ∧ (trace g t m₁).2.saved ≠ [] ∧
      returns g (obey g (trace g t m₁).2 ']').1 m₂ = 0 := by
  induction m generalizing t with
  | nil => exact absurd rfl some
  | cons symbol m ih =>
    by_cases later : returns g (obey g t symbol).1 m = 0
    · by_cases pops : symbol = ']' ∧ t.saved ≠ []
      · obtain ⟨rfl, saved⟩ := pops
        exact ⟨[], m, rfl, saved, later⟩
      · rw [returns, if_neg pops, later] at some
        exact absurd rfl some
    · obtain ⟨m₁, m₂, rfl, saved, last⟩ := ih later
      exact ⟨symbol :: m₁, m₂, rfl, saved, last⟩

/-- A branch draws its word from where it begins, and what follows is drawn as if the branch were not
there. Each symbol that is no turn and no bracket draws one stroke. It begins where the one before
ended, unless the turtle has returned in between; then it begins where the turtle was at the `[` that
the last return closes. -/
theorem pull_branches (g : Gait) :
    (∀ (t : Turtle) (u w v : List Char), Balanced w →
      let reached := (pull g t u).2
      (pull g reached w).1 = (pull g (start reached.pose) w).1 ∧
      pull g t (u ++ '[' :: (w ++ ']' :: v)) =
        ((pull g t u).1 ++ (pull g reached w).1 ++ (pull g reached v).1, (pull g t (u ++ v)).2)) ∧
    (∀ (t : Turtle) (word : List Char), (pull g t word).1.length = word.countP draws) ∧
    (∀ (pose : Pose) (u m v : List Char) (a b : Char), draws a = true → draws b = true →
      (∀ symbol ∈ m, draws symbol = false) →
      let t := start pose
      let strokes := (pull g t (u ++ a :: (m ++ b :: v))).1
      ∃ first second, strokes[u.countP draws]? = some first ∧
        strokes[u.countP draws + 1]? = some second ∧
        (returns g (pull g t (u ++ [a])).2 m = 0 ∧ second.start = first.stop ∨
          ∃ m₁ m₂, m = m₁ ++ ']' :: m₂ ∧
            let before := u ++ a :: m₁
            (pull g t before).2.saved ≠ [] ∧
            returns g (obey g (pull g t before).2 ']').1 m₂ = 0 ∧
            (∃ outer, Encloses outer before) ∧
            ∀ outer, Encloses outer before → second.start = (pull g t outer).2.pose.position)) := by
  simp only [pull_eq_trace]
  refine ⟨fun t u w v balanced => ?_, length_trace g, ?_⟩
  · have alike := congrArg Prod.fst (trace_balanced balanced g (trace g t u).2)
    exact ⟨alike, alike ▸ trace_around_branch balanced g t u v⟩
  · intro pose u m v a b stepsA stepsB quiet
    have count := countP_of_quiet stepsA u quiet
    have second := getElem?_trace stepsB g (start pose) (u ++ a :: m) v
    rw [count, List.append_assoc, List.cons_append] at second
    refine ⟨_, _, getElem?_trace stepsA g (start pose) u (m ++ b :: v), second, ?_⟩
    by_cases stays : returns g (trace g (start pose) (u ++ [a])).2 m = 0
    · exact .inl ⟨stays, position_behind_stroke stepsA quiet stays⟩
    · obtain ⟨m₁, m₂, rfl, saved, last⟩ := exists_last_return stays
      have goes : (trace g (start pose) (u ++ a :: m₁)).2 =
          (trace g (trace g (start pose) (u ++ [a])).2 m₁).2 := by
        rw [List.append_cons, trace_append]
      rw [← goes] at saved last
      refine .inr ⟨m₁, m₂, rfl, saved, last, exists_encloses g pose _ saved, ?_⟩
      intro outer encloses
      have later : ∀ symbol ∈ m₂, draws symbol = false := fun c mem => quiet c (by simp [mem])
      have back := position_of_return encloses later last
      rw [List.append_assoc, List.cons_append] at back
      exact back

/-- A branch in a branch: the branch does not matter for what follows, and the stroke behind both
begins where the outer one did. -/
theorem twig_pull_branches :
    let g : Gait := { turn := 25, length := 2 }
    let t := start { position := { x := 0, y := 0 }, heading := 0 }
    Balanced ['[', 'F', ']', '+', 'F'] ∧
      (pull g t ['F', '[', '[', 'F', ']', '+', 'F', ']', 'F']).2 = (pull g t ['F', 'F']).2 ∧
      ∃ last, (pull g t ['F', '[', '[', 'F', ']', '+', 'F', ']', 'F']).1[3]? = some last ∧
        last.start = (pull g t ['F']).2.pose.position := by
  intro g t
  have balanced : Balanced ['[', 'F', ']', '+', 'F'] := by decide
  obtain ⟨around, _, chain⟩ := pull_branches g
  have skips := congrArg Prod.snd (around t ['F'] _ ['F'] balanced).2
  obtain ⟨_, last, _, found, joins | ⟨m₁, m₂, parts, _, _, _, begins⟩⟩ :=
    chain t.pose ['F', '[', '[', 'F', ']', '+'] [']'] [] 'F' 'F' rfl rfl (by simp [draws])
  · have returned : returns g (pull g t ['F', '[', '[', 'F', ']', '+', 'F']).2 [']'] = 1 := by
      rw [pull_eq_trace]
      rfl
    exact absurd (returned.symm.trans joins.1) Nat.one_ne_zero
  · have short : m₁ = [] := by
      cases m₁ with
      | nil => rfl
      | cons _ m₁ => simp at parts
    subst short
    exact ⟨balanced, skips, last, found, begins ['F'] ⟨_, balanced, rfl⟩⟩

end Turtle

end LSystem
