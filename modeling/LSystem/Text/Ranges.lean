/-!
Sets of code points, kept as ascending ranges. A property of characters that Unicode gives as a
table is such a set.
-/

namespace LSystem.Text

/-- Ranges of code points, both ends included, in ascending order without overlap. -/
abbrev Ranges := List (Nat × Nat)

/-- Whether a code point is in one of the ranges. The search ends at the first range above it. -/
def Ranges.contains : Ranges → Nat → Bool
  | [], _ => false
  | (first, last) :: rest, code =>
    if code < first then false
    else if code ≤ last then true
    else contains rest code

/-- Whether the ranges are in order and apart. -/
def Ranges.ascending : Ranges → Bool
  | [] => true
  | [(first, last)] => first ≤ last
  | (first, last) :: (next, after) :: rest =>
    first ≤ last && last < next && ascending ((next, after) :: rest)

/-- What a table in order is searched for and found is what its ranges hold. -/
theorem Ranges.contains_iff {ranges : Ranges} (ordered : ranges.ascending = true) {code : Nat} :
    ranges.contains code = true ↔ ∃ r ∈ ranges, r.1 ≤ code ∧ code ≤ r.2 := by
  have above : ∀ {first last : Nat} {rest : Ranges},
      ascending ((first, last) :: rest) = true → first ≤ last ∧ ascending rest = true ∧
        ∀ r ∈ rest, last < r.1 := by
    intro first last rest
    induction rest generalizing first last with
    | nil => simp [ascending]
    | cons head tail ih =>
      intro ordered
      simp only [ascending, Bool.and_eq_true, decide_eq_true_eq] at ordered
      have inner := ih ordered.2
      refine ⟨ordered.1.1, ordered.2, fun r mem => ?_⟩
      rcases List.mem_cons.mp mem with rfl | later
      · exact ordered.1.2
      · have := inner.2.2 r later
        omega
  induction ranges with
  | nil => simp [contains]
  | cons head tail ih =>
    obtain ⟨first, last⟩ := head
    have facts := above ordered
    simp only [contains, List.mem_cons, exists_eq_or_imp]
    by_cases below : code < first
    · simp only [below, if_true, Bool.false_eq_true, false_iff, not_or]
      refine ⟨by omega, ?_⟩
      rintro ⟨r, mem, low, _⟩
      have := facts.2.2 r mem
      omega
    · by_cases inside : code ≤ last
      · simp only [below, inside, if_false, if_true, true_iff]
        exact Or.inl ⟨by omega, trivial⟩
      · simp only [below, inside, if_false, ih facts.2.1, and_false, false_or]

end LSystem.Text
