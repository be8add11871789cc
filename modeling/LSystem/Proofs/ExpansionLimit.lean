import LSystem.Proofs.Expansion
import Mathlib.Data.Nat.Find

/-! Expansion with a limit gives generation `n` exactly when no generation up to it is above the
limit; otherwise it names the first one that is. The size that is compared is computed before the
generation is built and is its size, cut at the largest one that is reported. -/

namespace LSystem

namespace Table

theorem foldl_size {f : String → Char → String} {cost : Char → Nat}
    (grows : ∀ out symbol, (f out symbol).utf8ByteSize = out.utf8ByteSize + cost symbol)
    (symbols : List Char) (out : String) :
    symbols.foldl (fun n symbol => min (n + cost symbol) maxSize) (min out.utf8ByteSize maxSize) =
      min (symbols.foldl f out).utf8ByteSize maxSize := by
  induction symbols generalizing out with
  | nil => rfl
  | cons symbol symbols ih =>
    have cut : min (min out.utf8ByteSize maxSize + cost symbol) maxSize =
        min (f out symbol).utf8ByteSize maxSize := by
      rw [grows]
      omega
    rw [List.foldl_cons, List.foldl_cons, cut, ih]

theorem nextSize_eq_min (t : Table) (word : String) :
    t.nextSize word = min (t.next word).utf8ByteSize maxSize := by
  rw [nextSize_eq, next, String.foldl_eq_foldl_toList]
  refine foldl_size (fun out symbol => ?_) word.toList ""
  cases found : t.get? symbol with
  | none => simp [sizeOf, found]
  | some value => simp [sizeOf, found]

section

variable (t : Table) {limit : Nat} (small : limit < maxSize)
include small

theorem lt_nextSize_iff (word : String) :
    limit < t.nextSize word ↔ limit < (t.next word).utf8ByteSize := by
  rw [nextSize_eq_min]
  omega

theorem afterWithin_refused {word : String} (above : limit < (t.next word).utf8ByteSize)
    (done n : Nat) : t.afterWithin limit done (n + 1) word =
      .error { limit, needed := min (t.next word).utf8ByteSize maxSize, reached := done } := by
  have refused := (t.lt_nextSize_iff small word).mpr above
  rw [afterWithin, if_pos refused, nextSize_eq_min]

theorem afterWithin_built {word : String} (fits : (t.next word).utf8ByteSize ≤ limit)
    (done n : Nat) : t.afterWithin limit done (n + 1) word =
      t.afterWithin limit (done + 1) n (t.next word) := by
  have accepted : ¬ limit < t.nextSize word := by
    rw [t.lt_nextSize_iff small]
    exact Nat.not_lt.mpr fits
  rw [afterWithin, if_neg accepted]

theorem afterWithin_within (done n : Nat) (word : String)
    (within : ∀ k < n, (t.after (k + 1) word).utf8ByteSize ≤ limit) :
    t.afterWithin limit done n word = .ok (t.after n word) := by
  induction n generalizing done word with
  | zero => rfl
  | succ n ih =>
    rw [t.afterWithin_built small (within 0 n.succ_pos)]
    exact ih (done + 1) (t.next word) fun k below => within (k + 1) (Nat.succ_lt_succ below)

theorem afterWithin_exceeded (done n k : Nat) (word : String) (reached : k < n)
    (above : limit < (t.after (k + 1) word).utf8ByteSize)
    (within : ∀ j < k, (t.after (j + 1) word).utf8ByteSize ≤ limit) :
    t.afterWithin limit done n word = .error {
      limit
      needed := min (t.after (k + 1) word).utf8ByteSize maxSize
      reached := done + k } := by
  obtain ⟨n, rfl⟩ := Nat.exists_eq_succ_of_ne_zero (Nat.ne_zero_of_lt reached)
  -- `k` counts the generations from the present word to the first one above the limit.
  induction k generalizing done n word with
  | zero => exact t.afterWithin_refused small above done n
  | succ k ih =>
    have further : k < n := Nat.lt_of_succ_lt_succ reached
    obtain ⟨n, rfl⟩ := Nat.exists_eq_succ_of_ne_zero (Nat.ne_zero_of_lt further)
    rw [t.afterWithin_built small (within 0 k.succ_pos)]
    have later := ih (done + 1) (t.next word) above
      (fun j below => within (j + 1) (Nat.succ_lt_succ below)) n further
    rw [later, Nat.add_assoc, Nat.add_comm 1 k]
    rfl

end

theorem size_of_afterWithin {t : Table} {limit done n : Nat} {word result : String}
    (fits : min word.utf8ByteSize maxSize ≤ limit)
    (built : t.afterWithin limit done n word = .ok result) :
    min result.utf8ByteSize maxSize ≤ limit := by
  induction n generalizing done word with
  | zero =>
    cases built
    exact fits
  | succ n ih =>
    simp only [afterWithin] at built
    split at built
    · contradiction
    · next accepted =>
      rw [nextSize_eq_min] at accepted
      exact ih (Nat.not_lt.mp accepted) built

/-- As `afterWithin`, with the words that are built on the way. -/
def traced (t : Table) (limit : Nat) :
    (done n : Nat) → String → List String × Except Oversize String
  | _, 0, word => ([], .ok word)
  | done, n + 1, word =>
    let needed := t.nextSize word
    if limit < needed then ([], .error { limit, needed, reached := done })
    else
      let built := t.next word
      let (later, outcome) := t.traced limit (done + 1) n built
      (built :: later, outcome)

theorem traced_outcome (t : Table) (limit done n : Nat) (word : String) :
    (t.traced limit done n word).2 = t.afterWithin limit done n word := by
  induction n generalizing done word with
  | zero => rfl
  | succ n ih =>
    rw [traced, afterWithin]
    split
    · rfl
    · exact ih (done + 1) (t.next word)

theorem map_range_succ (f : Nat → String) (n : Nat) :
    (List.range (n + 1)).map f = f 0 :: (List.range n).map fun k => f (k + 1) := by
  rw [List.range_succ_eq_map, List.map_cons, List.map_map]
  rfl

theorem traced_words (t : Table) {limit : Nat} (small : limit < maxSize) (done n : Nat)
    (word : String) : (t.traced limit done n word).1 =
      ((List.range n).map fun k => t.after (k + 1) word).takeWhile
        (·.utf8ByteSize ≤ limit) := by
  induction n generalizing done word with
  | zero => rfl
  | succ n ih =>
    rw [traced, map_range_succ, List.takeWhile_cons]
    -- The loop compares the computed size, `takeWhile` that of the word; they may differ only
    -- beyond `maxSize`.
    by_cases above : limit < (t.next word).utf8ByteSize
    · have refused := (t.lt_nextSize_iff small word).mpr above
      have out : ¬ (t.after 1 word).utf8ByteSize ≤ limit := Nat.not_le.mpr above
      simp [refused, out]
    · have accepted := mt (t.lt_nextSize_iff small word).mp above
      have inside : (t.after 1 word).utf8ByteSize ≤ limit := Nat.not_lt.mp above
      simp only [accepted, inside, if_false, decide_true, if_true, ih]
      rfl

end Table

/-- As `expandWithin`, with the words that are built on the way, the copy of the seed included. -/
def expandTraced (seed : String) (rules : Rules) (n limit : Nat) :
    List String × Except Oversize String :=
  if limit < seed.utf8ByteSize then
    ([], .error { limit, needed := seed.utf8ByteSize, reached := 0 })
  else
    let (later, outcome) := (Table.ofRules rules).traced limit 0 n seed
    (seed :: later, outcome)

theorem expandTraced_outcome (seed : String) (rules : Rules) (n limit : Nat) :
    (expandTraced seed rules n limit).2 = expandWithin seed rules n limit := by
  rw [expandTraced, expandWithin]
  split
  · rfl
  · exact Table.traced_outcome _ limit 0 n seed

theorem expandTraced_words (seed : String) (rules : Rules) (n : Nat) {limit : Nat}
    (small : limit < maxSize) : (expandTraced seed rules n limit).1 =
      ((List.range (n + 1)).map (expand seed rules)).takeWhile (·.utf8ByteSize ≤ limit) := by
  rw [expandTraced, Table.map_range_succ, List.takeWhile_cons]
  by_cases above : limit < seed.utf8ByteSize
  · have out : ¬ (expand seed rules 0).utf8ByteSize ≤ limit := Nat.not_le.mpr above
    simp [above, out]
  · have inside : (expand seed rules 0).utf8ByteSize ≤ limit := Nat.not_lt.mp above
    simp only [above, inside, if_false, decide_true, if_true, Table.traced_words _ small]
    rfl

/-- The refusal of generation `k`, the first one above the limit. -/
def Oversize.ofGeneration (seed : String) (rules : Rules) (limit : Nat) : (k : Nat) → Oversize
  | 0 => { limit, needed := (expand seed rules 0).utf8ByteSize, reached := 0 }
  | k + 1 =>
    { limit, needed := min (expand seed rules (k + 1)).utf8ByteSize maxSize, reached := k }

theorem expandWithin_within (seed : String) (rules : Rules) (n : Nat) {limit : Nat}
    (small : limit < maxSize) (within : ∀ k ≤ n, (expand seed rules k).utf8ByteSize ≤ limit) :
    expandWithin seed rules n limit = .ok (expand seed rules n) := by
  have start : ¬ limit < seed.utf8ByteSize := Nat.not_lt.mpr (within 0 n.zero_le)
  rw [expandWithin, if_neg start]
  exact Table.afterWithin_within _ small 0 n seed fun k below => within (k + 1) below

theorem expandWithin_exceeded (seed : String) (rules : Rules) (n k : Nat) {limit : Nat}
    (small : limit < maxSize) (reached : k ≤ n) (above : limit < (expand seed rules k).utf8ByteSize)
    (within : ∀ j < k, (expand seed rules j).utf8ByteSize ≤ limit) :
    expandWithin seed rules n limit = .error (.ofGeneration seed rules limit k) := by
  cases k with
  | zero => exact if_pos above
  | succ k =>
    have start : ¬ limit < seed.utf8ByteSize := Nat.not_lt.mpr (within 0 k.succ_pos)
    rw [expandWithin, if_neg start, Oversize.ofGeneration]
    have later := Table.afterWithin_exceeded (Table.ofRules rules) small 0 n k seed reached above
      fun j below => within (j + 1) (Nat.succ_lt_succ below)
    rw [later, Nat.zero_add]
    rfl

theorem size_of_expandWithin {seed : String} {rules : Rules} {n limit : Nat} {word : String}
    (built : expandWithin seed rules n limit = .ok word) :
    min word.utf8ByteSize maxSize ≤ limit := by
  unfold expandWithin at built
  split at built
  · contradiction
  · exact Table.size_of_afterWithin (by omega) built

/-- What was expanded within the limit has all its generations within it. -/
theorem size_expand_of_expandWithin {seed : String} {rules : Rules} {n limit : Nat} {word : String}
    (built : expandWithin seed rules n limit = .ok word) {k : Nat} (earlier : k ≤ n) :
    min (expand seed rules k).utf8ByteSize maxSize ≤ limit := by
  obtain ⟨result, within⟩ := expandWithin_fewer built earlier
  rw [← expandWithin_ok seed rules k limit result within]
  exact size_of_expandWithin within

theorem within_or_exceeded (size : Nat → Nat) (limit n : Nat) :
    (∀ k ≤ n, size k ≤ limit) ∨ ∃ k ≤ n, limit < size k ∧ ∀ j < k, size j ≤ limit := by
  by_cases exceeds : ∃ k, k ≤ n ∧ limit < size k
  · obtain ⟨below, above⟩ := Nat.find_spec exceeds
    refine .inr ⟨Nat.find exceeds, below, above, fun j before => ?_⟩
    have earlier : ¬ (j ≤ n ∧ limit < size j) := Nat.find_min exceeds before
    omega
  · left
    intro k below
    have fits : ¬ limit < size k := fun above => exceeds ⟨k, below, above⟩
    omega

/-- Expansion with a limit answers with generation `n` exactly when all generations up to it are
within the limit. Otherwise it refuses the first that is not. It builds the generations before
that one and nothing else. -/
theorem expandWithin_exact (seed : String) (rules : Rules) (n limit : Nat)
    (small : limit < maxSize) :
    let size k := (expand seed rules k).utf8ByteSize
    (∀ word, expandWithin seed rules n limit = .ok word ↔
      (∀ k ≤ n, size k ≤ limit) ∧ word = expand seed rules n) ∧
    (∀ k ≤ n, limit < size k → (∀ j < k, size j ≤ limit) →
      expandWithin seed rules n limit = .error (.ofGeneration seed rules limit k)) ∧
    (expandTraced seed rules n limit).2 = expandWithin seed rules n limit ∧
    (expandTraced seed rules n limit).1 =
      ((List.range (n + 1)).map (expand seed rules)).takeWhile (·.utf8ByteSize ≤ limit) ∧
    ∀ word ∈ (expandTraced seed rules n limit).1, word.utf8ByteSize ≤ limit := by
  intro size
  have words := expandTraced_words seed rules n small
  refine ⟨fun word => ?_, ?_, expandTraced_outcome seed rules n limit, words, ?_⟩
  · constructor
    · intro built
      obtain within | ⟨k, below, above, before⟩ := within_or_exceeded size limit n
      · rw [expandWithin_within seed rules n small within] at built
        exact ⟨within, (Except.ok.inj built).symm⟩
      · rw [expandWithin_exceeded seed rules n k small below above before] at built
        contradiction
    · rintro ⟨within, rfl⟩
      exact expandWithin_within seed rules n small within
  · intro k below above before
    exact expandWithin_exceeded seed rules n k small below above before
  · intro word mem
    rw [words] at mem
    simpa using List.all_eq_true.mp List.all_takeWhile word mem

/-- Generations of 1, 3 and 5 bytes under a limit of 4. -/
theorem grown_expandWithin_exact :
    expandWithin "F" (.ofPairs [('F', "FŁ")]) 1 4 = .ok "FŁ" ∧
      expandWithin "F" (.ofPairs [('F', "FŁ")]) 5 4 =
        .error { limit := 4, needed := 5, reached := 1 } := by
  have small : 4 < maxSize := by decide
  have first : expand "F" (.ofPairs [('F', "FŁ")]) 1 = "FŁ" := Table.next_toString _ 'F'
  have second : expand "F" (.ofPairs [('F', "FŁ")]) 2 = "FŁŁ" :=
    calc
      (Table.ofRules (.ofPairs [('F', "FŁ")])).next (expand "F" (.ofPairs [('F', "FŁ")]) 1)
      _ = (Table.ofRules (.ofPairs [('F', "FŁ")])).next ('F'.toString ++ 'Ł'.toString) := by
        rw [first]
        rfl
      _ = "FŁŁ" := by
        rw [Table.next_append, Table.next_toString, Table.next_toString]
        decide
  have within : ∀ k < 2, (expand "F" (.ofPairs [('F', "FŁ")]) k).utf8ByteSize ≤ 4 := by
    intro k below
    obtain rfl | rfl : k = 0 ∨ k = 1 := by omega
    · decide
    · rw [first]
      decide
  constructor
  · refine ((expandWithin_exact "F" _ 1 4 small).1 "FŁ").mpr ⟨?_, first.symm⟩
    exact fun k below => within k (Nat.lt_succ_of_le below)
  · have above : 4 < (expand "F" (.ofPairs [('F', "FŁ")]) 2).utf8ByteSize := by
      rw [second]
      decide
    have refused := (expandWithin_exact "F" _ 5 4 small).2.1 2 (by decide) above within
    rw [refused, Oversize.ofGeneration, second]
    rfl

end LSystem
