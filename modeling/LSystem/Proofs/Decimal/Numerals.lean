import LSystem.Decimal.Reading

/-! Natural numbers in decimal. A text is read exactly if it is a numeral of a number within the limit,
however many digits it has: reading ends at the first digit that lifts the number above the limit, and
further digits would only have made it larger. In words of 32 bits, with every product and sum checked,
the same is read. -/

namespace LSystem.Decimal

/-- Digits, at least one, behind a plus sign or none, and the number that they write. -/
inductive Numeral : List Char → Nat → Prop where
  | plain {digits : List Char} (some : digits ≠ []) (all : ∀ c ∈ digits, c.isDigit) :
      Numeral digits (Nat.ofDigitChars 10 digits 0)
  | signed {digits : List Char} (some : digits ≠ []) (all : ∀ c ∈ digits, c.isDigit) :
      Numeral ('+' :: digits) (Nat.ofDigitChars 10 digits 0)

/-- What follows the plus sign, or the whole text without one. -/
def unsigned : List Char → List Char
  | '+' :: digits => digits
  | digits => digits

theorem unsigned_of_digits {digits : List Char} (all : ∀ c ∈ digits, c.isDigit) :
    unsigned digits = digits := by
  unfold unsigned
  split
  · exact absurd (all '+' List.mem_cons_self) (by decide)
  · rfl

theorem unsigned_cases (s : List Char) : s = '+' :: unsigned s ∨ s = unsigned s := by
  unfold unsigned
  split
  · exact .inl rfl
  · exact .inr rfl

theorem numeral_iff {s : List Char} {n : Nat} :
    Numeral s n ↔ unsigned s ≠ [] ∧ (∀ c ∈ unsigned s, c.isDigit) ∧
      Nat.ofDigitChars 10 (unsigned s) 0 = n := by
  constructor
  · rintro (⟨some, all⟩ | ⟨some, all⟩)
    · rw [unsigned_of_digits all]
      exact ⟨some, all, rfl⟩
    · exact ⟨some, all, rfl⟩
  · rintro ⟨some, all, rfl⟩
    have parts := unsigned_cases s
    generalize unsigned s = digits at parts some all ⊢
    rcases parts with rfl | rfl
    · exact .signed some all
    · exact .plain some all

theorem numeral_toDigits (n : Nat) : Numeral (Nat.toDigits 10 n) n := by
  have written : Numeral (Nat.toDigits 10 n) (Nat.ofDigitChars 10 (Nat.toDigits 10 n) 0) :=
    .plain Nat.toDigits_ne_nil fun c => Nat.isDigit_of_mem_toDigits (by decide) (by decide)
  rwa [Nat.ofDigitChars_ten_toDigits] at written

theorem digit?_eq (c : Char) :
    digit? c = if c.isDigit then some (c.toNat - '0'.toNat) else none := by
  simp [digit?, Char.isDigit, Char.le_def]

theorem toNat_of_isDigit {c : Char} (digit : c.isDigit) : 48 ≤ c.toNat ∧ c.toNat ≤ 57 := by
  simp only [Char.isDigit, Bool.and_eq_true, decide_eq_true_eq] at digit
  exact digit

theorem digit?_lt {c : Char} {d : Nat} (read : digit? c = some d) : d < 10 := by
  rw [digit?_eq] at read
  split at read
  · next digit =>
    have code := toNat_of_isDigit digit
    have zero : '0'.toNat = 48 := rfl
    cases read
    omega
  · contradiction

theorem le_ofDigitChars (digits : List Char) (n : Nat) : n ≤ Nat.ofDigitChars 10 digits n := by
  induction digits generalizing n with
  | nil => exact Nat.le_refl n
  | cons c digits ih =>
    rw [Nat.ofDigitChars_cons]
    have rest := ih (10 * n + (c.toNat - '0'.toNat))
    omega

theorem readDigits_eq_ok_iff {limit : Nat} {overflow : Fault} {n m : Nat} (held : n ≤ limit)
    (digits : List Char) :
    readDigits limit overflow n digits = .ok m ↔
      (∀ c ∈ digits, c.isDigit) ∧ Nat.ofDigitChars 10 digits n = m ∧ m ≤ limit := by
  induction digits generalizing n with
  | nil =>
    simp only [readDigits, Except.ok.injEq, List.not_mem_nil, false_implies, implies_true, true_and,
      Nat.ofDigitChars_nil]
    exact ⟨fun same => ⟨same, same ▸ held⟩, And.left⟩
  | cons c digits ih =>
    rw [readDigits, digit?_eq, Nat.ofDigitChars_cons, List.forall_mem_cons]
    by_cases digit : c.isDigit
    · simp only [digit, if_true, true_and]
      split
      · next above =>
        -- Reading ends here, and no further digits take the number back.
        refine ⟨fun read => by contradiction, ?_⟩
        rintro ⟨_, rfl, within⟩
        exact absurd (Nat.le_trans (le_ofDigitChars digits _) within) (Nat.not_le_of_lt above)
      · next within => exact ih (Nat.le_of_not_lt within)
    · simp [digit]

theorem readNat_eq (limit : Nat) (s : List Char) :
    readNat limit s =
      if s = [] then .error .empty
      else if unsigned s = [] then .error .invalid
      else readDigits limit .tooLarge 0 (unsigned s) := by
  unfold readNat unsigned
  split <;> simp_all

theorem readNat_eq_ok_iff {limit n : Nat} {s : List Char} :
    readNat limit s = .ok n ↔ Numeral s n ∧ n ≤ limit := by
  rw [readNat_eq, numeral_iff]
  by_cases empty : s = []
  · simp [empty, unsigned]
  · by_cases bare : unsigned s = []
    · simp [empty, bare]
    · rw [if_neg empty, if_neg bare, readDigits_eq_ok_iff (Nat.zero_le limit)]
      simp only [ne_eq, bare, not_false_eq_true, true_and, and_assoc]

/-- What an operation on words gives, if that is the exact result. -/
def checked? (exact : Nat) (word : UInt32) : Option UInt32 :=
  if word.toNat = exact then some word else none

theorem toNat_checked? {exact : Nat} {word : UInt32} (wraps : word.toNat = exact % UInt32.size) :
    (checked? exact word).map UInt32.toNat = if exact < UInt32.size then some exact else none := by
  unfold checked?
  by_cases fits : exact < UInt32.size
  · rw [Nat.mod_eq_of_lt fits] at wraps
    rw [if_pos wraps, if_pos fits, Option.map_some, wraps]
  · have cut : word.toNat ≠ exact := fun same => fits (same ▸ word.toNat_lt)
    rw [if_neg cut, if_neg fits]
    rfl

/-- The number with one more digit. -/
def append? (n : UInt32) (d : Nat) : Option UInt32 := do
  let tens ← checked? (10 * n.toNat) (10 * n)
  checked? (tens.toNat + d) (tens + .ofNat d)

theorem toNat_append? (n : UInt32) {d : Nat} (digit : d < 10) :
    (append? n d).map UInt32.toNat =
      if 10 * n.toNat + d < UInt32.size then some (10 * n.toNat + d) else none := by
  have small : (UInt32.ofNat d).toNat = d :=
    UInt32.toNat_ofNat_of_lt' (Nat.lt_trans digit (by decide))
  have product : (checked? (10 * n.toNat) (10 * n)).map UInt32.toNat =
      if 10 * n.toNat < UInt32.size then some (10 * n.toNat) else none :=
    toNat_checked? (UInt32.toNat_mul 10 n)
  unfold append?
  cases found : checked? (10 * n.toNat) (10 * n) with
  | none =>
    rw [found] at product
    split at product
    · contradiction
    · rw [if_neg (by omega)]
      rfl
  | some tens =>
    rw [found] at product
    split at product
    · have whole : tens.toNat = 10 * n.toNat := Option.some.inj product
      have sum : (tens + .ofNat d).toNat = (tens.toNat + d) % UInt32.size := by
        rw [UInt32.toNat_add, small]
      rw [← whole]
      exact toNat_checked? sum
    · contradiction

/-- Reads digits from the left into `n`. -/
def digitsWord? : UInt32 → List Char → Option UInt32
  | n, [] => some n
  | n, c :: rest => do
    let d ← digit? c
    let n ← append? n d
    digitsWord? n rest

/-- Reads a numeral in words of 32 bits. -/
def readWord? (s : List Char) : Option UInt32 :=
  if unsigned s = [] then none else digitsWord? 0 (unsigned s)

theorem toNat_digitsWord? (overflow : Fault) (n : UInt32) (digits : List Char) :
    (digitsWord? n digits).map UInt32.toNat =
      (readDigits (UInt32.size - 1) overflow n.toNat digits).toOption := by
  induction digits generalizing n with
  | nil => rfl
  | cons c digits ih =>
    have size : UInt32.size = 4294967296 := rfl
    rw [digitsWord?, readDigits]
    cases found : digit? c with
    | none => rfl
    | some d =>
      have appended := toNat_append? n (digit?_lt found)
      dsimp only [Option.bind_eq_bind, Option.bind_some]
      cases longer : append? n d with
      | none =>
        rw [longer] at appended
        split at appended
        · contradiction
        · rw [if_pos (by omega)]
          rfl
      | some m =>
        rw [longer] at appended
        split at appended
        · have whole : m.toNat = 10 * n.toNat + d := Option.some.inj appended
          rw [if_neg (by omega), ← whole]
          exact ih m
        · contradiction

theorem toNat_readWord? (s : List Char) :
    (readWord? s).map UInt32.toNat = (readNat (UInt32.size - 1) s).toOption := by
  rw [readWord?, readNat_eq]
  by_cases empty : s = []
  · rw [empty]
    rfl
  · rw [if_neg empty]
    split
    · rfl
    · exact toNat_digitsWord? .tooLarge 0 (unsigned s)

end LSystem.Decimal
