import LSystem.Proofs.ExpansionLimit

/-! Expansion in two stages. The second stage goes on where the first has ended, with a limit too, and
its look at the size of what it starts from never refuses what the first stage has let through. A
refusal then only lacks the rounds of the first stage, and more room changes nothing that has
succeeded. -/

namespace LSystem

/-- The refusal as it is said when `n` rounds went before. -/
def Oversize.behind (n : Nat) (e : Oversize) : Oversize := { e with reached := e.reached + n }

namespace Table

variable (t : Table)

theorem after_add (n m : Nat) (word : String) :
    t.after (n + m) word = t.after m (t.after n word) := by
  induction n generalizing word with
  | zero => simp [after]
  | succ n ih => simp [Nat.succ_add, after, ih]

theorem afterWithin_add (limit done n m : Nat) (word : String) :
    t.afterWithin limit done (n + m) word =
      (t.afterWithin limit done n word).bind (t.afterWithin limit (done + n) m) := by
  induction n generalizing done word with
  | zero => simp [afterWithin, Except.bind]
  | succ n ih =>
    have rounds : done + 1 + n = done + (n + 1) := by omega
    simp only [Nat.succ_add, afterWithin, ih, rounds]
    split
    · rfl
    · rfl

theorem afterWithin_behind (limit done n m : Nat) (word : String) :
    t.afterWithin limit (done + n) m word =
      (t.afterWithin limit done m word).mapError (Oversize.behind n) := by
  induction m generalizing done word with
  | zero => rfl
  | succ m ih =>
    have later := ih (done + 1) (t.next word)
    rw [Nat.add_right_comm] at later
    simp only [afterWithin, later]
    split
    · rfl
    · rfl

theorem afterWithin_more {limit larger done n : Nat} {word result : String}
    (more : limit ≤ larger) (built : t.afterWithin limit done n word = .ok result) :
    t.afterWithin larger done n word = .ok result := by
  induction n generalizing done word with
  | zero => exact built
  | succ n ih =>
    simp only [afterWithin] at built ⊢
    split at built
    · contradiction
    · next fits =>
      rw [if_neg (by omega)]
      exact ih built

end Table

theorem expandWithin_of_fits {seed : String} {limit : Nat} (fits : seed.utf8ByteSize ≤ limit)
    (rules : Rules) (n : Nat) :
    expandWithin seed rules n limit = (Table.ofRules rules).afterWithin limit 0 n seed :=
  if_neg (Nat.not_lt.mpr fits)

theorem expandWithin_add (seed : String) (rules : Rules) (n m : Nat) {limit : Nat}
    (small : limit < maxSize) : expandWithin seed rules (n + m) limit =
      (expandWithin seed rules n limit).bind fun word =>
        (expandWithin word rules m limit).mapError (Oversize.behind n) := by
  by_cases above : limit < seed.utf8ByteSize
  · simp [expandWithin, above, Except.bind]
  · have fits : seed.utf8ByteSize ≤ limit := Nat.not_lt.mp above
    rw [expandWithin_of_fits fits, Table.afterWithin_add, ← expandWithin_of_fits fits]
    cases built : expandWithin seed rules n limit with
    | error e => rfl
    | ok word =>
      -- The second stage looks at the size of its seed, which the first one has let through.
      have size := size_of_expandWithin built
      have passes : word.utf8ByteSize ≤ limit := by omega
      simp only [Except.bind, expandWithin_of_fits passes, Table.afterWithin_behind]

theorem expandWithin_more {seed : String} {rules : Rules} {n limit larger : Nat} {word : String}
    (more : limit ≤ larger) (built : expandWithin seed rules n limit = .ok word) :
    expandWithin seed rules n larger = .ok word := by
  unfold expandWithin at built
  split at built
  · contradiction
  · rw [expandWithin_of_fits (by omega)]
    exact Table.afterWithin_more _ more built

/-- Generation `n + m` of a seed is generation `m` of its generation `n`. With a limit both stages say
what one expansion says, when the refusal of the second has the rounds of the first added. What fits
in the limit is the same in a larger one. -/
theorem expand_in_stages (seed : String) (rules : Rules) (n m : Nat) :
    expand seed rules (n + m) = expand (expand seed rules n) rules m ∧
    (∀ limit < maxSize, expandWithin seed rules (n + m) limit =
      (expandWithin seed rules n limit).bind fun word =>
        (expandWithin word rules m limit).mapError fun e =>
          { limit := e.limit, needed := e.needed, reached := e.reached + n }) ∧
    ∀ limit larger, limit ≤ larger → ∀ word, expandWithin seed rules n limit = .ok word →
      expandWithin seed rules n larger = .ok word := by
  refine ⟨?_, ?_, ?_⟩
  · exact Table.after_add _ n m seed
  · intro limit small
    exact expandWithin_add seed rules n m small
  · intro limit larger more word built
    exact expandWithin_more more built

/-- The dragon curve with room for four symbols: its first generation fits, and the second is refused
as one that is reached after one round. -/
theorem dragon_expand_in_stages :
    let rules := Rules.ofPairs [('F', "F+G"), ('G', "F-G")]
    expandWithin "F" rules 1 9 = .ok "F+G" ∧
      expandWithin "F" rules (1 + 1) 4 = .error { limit := 4, needed := 7, reached := 1 } := by
  intro rules
  have small : 4 < maxSize := by decide
  have first : expandWithin "F" rules 1 4 = .ok "F+G" := by
    simp only [expandWithin, Table.afterWithin, Table.nextSize_eq, Table.next_eq, Table.image, rules,
      Table.get?_ofRules]
    rfl
  have second : expandWithin "F+G" rules 1 4 = .error { limit := 4, needed := 7, reached := 0 } := by
    simp only [expandWithin, Table.afterWithin, Table.nextSize_eq]
    rfl
  obtain ⟨_, stages, more⟩ := expand_in_stages "F" rules 1 1
  refine ⟨more 4 9 (by decide) _ first, ?_⟩
  rw [stages 4 small, first, Except.bind, second]
  rfl

end LSystem
