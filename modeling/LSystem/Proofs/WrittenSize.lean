import LSystem.Dimensions
import LSystem.Proofs.Decimal.Numerals
import Mathlib.Data.List.TakeWhile

/-! How the size of a printed frame may be written. The first separator divides the text, blanks around
either part do not matter, and what is left of a part is a numeral of which only the number counts. Just
such texts are read. Any other text is refused for what is wrong with it, and a size that is shown reads
back. -/

namespace LSystem

section

variable {α : Type} {p : α → Bool} {s : List α}

theorem dropWhile_append_of_head {before : List α} (all : ∀ a ∈ before, p a)
    (stops : ∀ a ∈ s.head?, ¬ p a) : (before ++ s).dropWhile p = s := by
  rw [List.dropWhile_append_of_pos all]
  cases s with
  | nil => rfl
  | cons a s => exact List.dropWhile_cons_of_neg (stops a rfl)

theorem not_of_mem_head?_dropWhile {a : α} (mem : a ∈ (s.dropWhile p).head?) : ¬ p a := by
  have stops := List.head?_dropWhile_not p s
  rw [Option.mem_def.mp mem] at stops
  exact Bool.eq_false_iff.mp stops

end

namespace Text

/-- The character has the property White_Space. -/
def Blank (c : Char) : Prop := ∃ r ∈ blanks, r.1 ≤ c.toNat ∧ c.toNat ≤ r.2

/-- The inner text is all that is left of a text without the blanks before and after it. -/
structure Trimmed (s inner : List Char) : Prop where
  around : ∃ before after, s = before ++ inner ++ after ∧ ∀ c ∈ before ++ after, Blank c
  first : ∀ c ∈ inner.head?, ¬ Blank c
  last : ∀ c ∈ inner.getLast?, ¬ Blank c

theorem isBlank_iff (c : Char) : isBlank c = true ↔ Blank c := Ranges.contains_iff ascending_blanks

theorem not_blank_of_isDigit {c : Char} (digit : c.isDigit) : ¬ Blank c := by
  have code := Decimal.toNat_of_isDigit digit
  simp only [Blank, blanks, List.mem_cons, List.not_mem_nil, or_false, exists_eq_or_imp,
    exists_eq_left]
  omega

theorem trimmed_trim (s : List Char) : Trimmed s (trim s) := by
  have front : s.takeWhile isBlank ++ s.dropWhile isBlank = s := List.takeWhile_append_dropWhile
  have back : trim s ++ ((s.dropWhile isBlank).reverse.takeWhile isBlank).reverse =
      s.dropWhile isBlank := by
    rw [trim, ← List.reverse_append, List.takeWhile_append_dropWhile, List.reverse_reverse]
  constructor
  case around =>
    refine ⟨_, _, by rw [List.append_assoc, back, front], fun c mem => (isBlank_iff c).mp ?_⟩
    rcases List.mem_append.mp mem with before | after
    · exact List.mem_takeWhile_imp before
    · exact List.mem_takeWhile_imp (List.mem_reverse.mp after)
  case first =>
    intro c mem
    rw [← isBlank_iff]
    refine not_of_mem_head?_dropWhile (s := s) ?_
    rw [← back, List.head?_append, Option.mem_def.mp mem]
    rfl
  case last =>
    intro c mem
    rw [trim, List.getLast?_reverse] at mem
    rw [← isBlank_iff]
    exact not_of_mem_head?_dropWhile mem

theorem trim_of_trimmed {s inner : List Char} (trimmed : Trimmed s inner) : trim s = inner := by
  obtain ⟨⟨before, after, rfl, blank⟩, first, last⟩ := trimmed
  simp only [List.forall_mem_append, ← isBlank_iff] at blank first last
  cases inner with
  | nil =>
    -- The first run of blanks has no end, and takes those of the other side as well.
    have none : (before ++ after).dropWhile isBlank = [] :=
      List.dropWhile_eq_nil_iff.mpr (List.forall_mem_append.mpr blank)
    rw [trim, List.append_nil, none]
    rfl
  | cons c inner =>
    have front : (before ++ (c :: inner ++ after)).dropWhile isBlank = c :: inner ++ after :=
      dropWhile_append_of_head blank.1 first
    have back : (after.reverse ++ (c :: inner).reverse).dropWhile isBlank = (c :: inner).reverse :=
      dropWhile_append_of_head (fun a mem => blank.2 a (List.mem_reverse.mp mem))
        (List.head?_reverse ▸ last)
    rw [trim, List.append_assoc, front, List.reverse_append, back, List.reverse_reverse]

theorem trimmed_iff {s inner : List Char} : Trimmed s inner ↔ trim s = inner :=
  ⟨trim_of_trimmed, fun same => same ▸ trimmed_trim s⟩

end Text

namespace Dimensions

/-- What stands between the width and the height. -/
def Separates (c : Char) : Prop := c = 'x' ∨ c = 'X'

/-- The part is a numeral with blanks around it, of a number in the valid range. -/
def Side (part : List Char) (n : Nat) : Prop :=
  ∃ inner, Text.Trimmed part inner ∧ Decimal.Numeral inner n ∧ 1 ≤ n ∧ n ≤ maxSide

/-- The text is a width, the first separator and a height. -/
inductive Written : List Char → Nat → Nat → Prop where
  | sides {p q : List Char} {c : Char} {width height : Nat} (first : ∀ a ∈ p, ¬ Separates a)
      (here : Separates c) (left : Side p width) (right : Side q height) :
      Written (p ++ c :: q) width height

/-- What is wrong with a text. Of two sides that are wrong it is the width. -/
inductive Faulty : List Char → DimensionsError → Prop where
  | whole {text : List Char} (none : ∀ a ∈ text, ¬ Separates a) : Faulty text (.noSeparator text)
  | left {p q : List Char} {c : Char} (first : ∀ a ∈ p, ¬ Separates a) (here : Separates c)
      (bad : ∀ n, ¬ Side p n) : Faulty (p ++ c :: q) (.badSide p)
  | right {p q : List Char} {c : Char} {width : Nat} (first : ∀ a ∈ p, ¬ Separates a)
      (here : Separates c) (good : Side p width) (bad : ∀ n, ¬ Side q n) :
      Faulty (p ++ c :: q) (.badSide q)

theorem side_iff {part : List Char} {n : Nat} :
    Side part n ↔ Decimal.Numeral (Text.trim part) n ∧ 1 ≤ n ∧ n ≤ maxSide := by
  simp only [Side, Text.trimmed_iff, exists_eq_left']

theorem side_toDigits {n : Nat} (valid : 1 ≤ n ∧ n ≤ maxSide) : Side (Nat.toDigits 10 n) n := by
  have digits : ∀ c ∈ Nat.toDigits 10 n, ¬ Text.Blank c := fun c mem =>
    Text.not_blank_of_isDigit (Nat.isDigit_of_mem_toDigits (by decide) (by decide) mem)
  refine ⟨_, ?_, Decimal.numeral_toDigits n, valid⟩
  constructor
  case around => exact ⟨[], [], by simp, by simp⟩
  case first => exact fun c mem => digits c (List.mem_of_mem_head? mem)
  case last => exact fun c mem => digits c (List.mem_of_mem_getLast? mem)

theorem readSide_of_side {part : List Char} {n : Nat} (side : Side part n) :
    ∃ valid, readSide part = .ok ⟨n, valid⟩ := by
  obtain ⟨numeral, valid⟩ := side_iff.mp side
  have read : Decimal.readNat (Nat.pow 2 32 - 1) (Text.trim part) = .ok n :=
    Decimal.readNat_eq_ok_iff.mpr ⟨numeral, Nat.le_trans valid.2 (by decide)⟩
  refine ⟨valid, ?_⟩
  rw [readSide, read]
  exact dif_pos valid

theorem readSide_of_no_side {part : List Char} (bad : ∀ n, ¬ Side part n) :
    readSide part = .error (.badSide part) := by
  unfold readSide
  cases found : Decimal.readNat (Nat.pow 2 32 - 1) (Text.trim part) with
  | error fault => rfl
  | ok n =>
    have numeral := (Decimal.readNat_eq_ok_iff.mp found).1
    exact dif_neg fun valid => bad n (side_iff.mpr ⟨numeral, valid⟩)

/-- One side, read in words of 32 bits. -/
def sideWord? (part : List Char) : Option UInt32 :=
  (Decimal.readWord? (Text.trim part)).filter fun n => 1 ≤ n && n ≤ .ofNat maxSide

theorem toOption_readSide (part : List Char) :
    (readSide part).toOption.map Subtype.val =
      (Decimal.readNat (Nat.pow 2 32 - 1) (Text.trim part)).toOption.filter
        fun n => 1 ≤ n && n ≤ maxSide := by
  unfold readSide
  cases Decimal.readNat (Nat.pow 2 32 - 1) (Text.trim part) with
  | error fault => rfl
  | ok n => by_cases valid : 1 ≤ n ∧ n ≤ maxSide <;> simp [valid, Except.toOption, Option.filter]

theorem toNat_sideWord? (part : List Char) :
    (sideWord? part).map UInt32.toNat = (readSide part).toOption.map Subtype.val := by
  have valid : (fun n : UInt32 => 1 ≤ n && n ≤ .ofNat maxSide) =
      (fun n : Nat => 1 ≤ n && n ≤ maxSide) ∘ UInt32.toNat := by
    funext n
    simp only [UInt32.le_iff_toNat_le, Function.comp_apply]
    rfl
  rw [toOption_readSide, sideWord?, valid, ← Option.filter_map]
  exact congrArg (Option.filter _) (Decimal.toNat_readWord? _)

theorem separated_cases (text : List Char) : (∀ a ∈ text, ¬ Separates a) ∨
    ∃ p c q, text = p ++ c :: q ∧ (∀ a ∈ p, ¬ Separates a) ∧ Separates c := by
  induction text with
  | nil => exact .inl (by simp)
  | cons a text ih =>
    by_cases here : Separates a
    · exact .inr ⟨[], a, text, rfl, by simp, here⟩
    · rcases ih with none | ⟨p, c, q, rfl, first, there⟩
      · exact .inl (List.forall_mem_cons.mpr ⟨here, none⟩)
      · exact .inr ⟨a :: p, c, q, rfl, List.forall_mem_cons.mpr ⟨here, first⟩, there⟩

theorem isSeparator_iff (c : Char) : isSeparator c = true ↔ Separates c := by
  simp [isSeparator, Separates]

theorem read_of_none {text : List Char} (none : ∀ a ∈ text, ¬ Separates a) :
    read text = .error (.noSeparator text) := by
  have left : text.dropWhile (!isSeparator ·) = [] :=
    List.dropWhile_eq_nil_iff.mpr (by simpa [← isSeparator_iff] using none)
  rw [read, left]

theorem read_separated {p q : List Char} {c : Char} (first : ∀ a ∈ p, ¬ Separates a)
    (here : Separates c) :
    read (p ++ c :: q) = (readSide p).bind fun width => (readSide q).map fun height =>
      ⟨width.val, height.val, width.property, height.property⟩ := by
  rw [← isSeparator_iff] at here
  have inner : ∀ a ∈ p, (!isSeparator a) = true := by simpa [← isSeparator_iff] using first
  have width : (p ++ c :: q).takeWhile (!isSeparator ·) = p := by
    rw [List.takeWhile_append_of_pos inner, List.takeWhile_cons_of_neg (by simp [here]),
      List.append_nil]
  have height : (p ++ c :: q).dropWhile (!isSeparator ·) = c :: q :=
    dropWhile_append_of_head inner (by simp [here])
  rw [read, width, height]
  rfl

theorem eq_of_sides {d e : Dimensions} (width : d.width = e.width) (height : d.height = e.height) :
    d = e := by
  cases d
  cases e
  cases width
  cases height
  rfl

theorem read_of_written {text : List Char} {width height : Nat}
    (written : Written text width height) :
    ∃ d, read text = .ok d ∧ d.width = width ∧ d.height = height := by
  obtain ⟨first, here, left, right⟩ := written
  obtain ⟨wide, width⟩ := readSide_of_side left
  obtain ⟨high, height⟩ := readSide_of_side right
  refine ⟨⟨_, _, wide, high⟩, ?_, rfl, rfl⟩
  rw [read_separated first here, width, height]
  rfl

theorem read_of_faulty {text : List Char} {e : DimensionsError} (faulty : Faulty text e) :
    read text = .error e := by
  cases faulty with
  | whole none => exact read_of_none none
  | left first here bad =>
    rw [read_separated first here, readSide_of_no_side bad]
    rfl
  | right first here good bad =>
    obtain ⟨_, width⟩ := readSide_of_side good
    rw [read_separated first here, width, readSide_of_no_side bad]
    rfl

theorem written_or_faulty (text : List Char) :
    (∃ width height, Written text width height) ∨ ∃ e, Faulty text e := by
  rcases separated_cases text with none | ⟨p, c, q, rfl, first, here⟩
  · exact .inr ⟨_, .whole none⟩
  · by_cases left : ∃ width, Side p width
    · obtain ⟨width, good⟩ := left
      by_cases right : ∃ height, Side q height
      · obtain ⟨height, other⟩ := right
        exact .inl ⟨_, _, .sides first here good other⟩
      · exact .inr ⟨_, .right first here good fun height side => right ⟨height, side⟩⟩
    · exact .inr ⟨_, .left first here fun width side => left ⟨width, side⟩⟩

theorem written_text (d : Dimensions) : Written d.text.toList d.width d.height := by
  have chars : d.text.toList = Nat.toDigits 10 d.width ++ 'x' :: Nat.toDigits 10 d.height := by
    simp [text]
  rw [chars]
  refine .sides (fun a mem separates => ?_) (.inl rfl) (side_toDigits d.width_valid)
    (side_toDigits d.height_valid)
  have digit := Nat.isDigit_of_mem_toDigits (by decide) (by decide) mem
  rcases separates with rfl | rfl <;> contradiction

/-- Exactly the written sizes are read, as what is written. Any other text is refused for what is
wrong with it. No number of digits makes a difference: reading a side in words, with each product and
sum checked, gives the same. A size that is shown reads back. -/
theorem read_exact :
    (∀ text width height, (∃ d, read text = .ok d ∧ d.width = width ∧ d.height = height) ↔
      Written text width height) ∧
    (∀ text, (∃ e, read text = .error e ∧ Faulty text e) ↔
      ∀ width height, ¬ Written text width height) ∧
    (∀ part, (sideWord? part).map UInt32.toNat = (readSide part).toOption.map Subtype.val) ∧
    ∀ d : Dimensions, read d.text.toList = .ok d := by
  refine ⟨fun text width height => ⟨?_, read_of_written⟩, fun text => ⟨?_, fun none => ?_⟩,
    toNat_sideWord?, fun d => ?_⟩
  · rintro ⟨d, read, rfl, rfl⟩
    rcases written_or_faulty text with ⟨width, height, written⟩ | ⟨e, faulty⟩
    · obtain ⟨other, same, rfl, rfl⟩ := read_of_written written
      cases read.symm.trans same
      exact written
    · cases read.symm.trans (read_of_faulty faulty)
  · rintro ⟨e, refused, _⟩ width height written
    obtain ⟨d, read, _⟩ := read_of_written written
    cases refused.symm.trans read
  · rcases written_or_faulty text with ⟨width, height, written⟩ | ⟨e, faulty⟩
    · exact absurd written (none width height)
    · exact ⟨e, read_of_faulty faulty, faulty⟩
  · obtain ⟨other, read, width, height⟩ := read_of_written (written_text d)
    rw [read, eq_of_sides width height]

example : (read ['\t', '+', '0', '8', ' ', 'X', '4']).toOption.map text = some "8x4" ∧
    read ['8', 'x', '4', 'X'] = .error (.badSide ['4', 'X']) := by decide

end Dimensions

end LSystem
