import LSystem.Text.Utf8

/-! Reading UTF-8 undoes writing it, for every character and every text. The writer is the
standard library's. -/

namespace LSystem.Text.Utf8

def encode (text : List Char) : List UInt8 := text.flatMap String.utf8EncodeChar

theorem toNat_ofNat {n : Nat} (small : n < 256) : (UInt8.ofNat n).toNat = n := by
  simpa using Nat.mod_eq_of_lt small

theorem follow_tail {k more low high value : Nat} (bytes : List UInt8)
    (lower : low ≤ k % 64 + 128) (upper : k % 64 + 128 ≤ high) :
    follow (more + 1) low high value (UInt8.ofNat (k % 64 + 128) :: bytes) =
      follow more 0x80 0xBF (value * 64 + k % 64) bytes := by
  have byte : (UInt8.ofNat (k % 64 + 128)).toNat = k % 64 + 128 := toNat_ofNat (by omega)
  have bits : (k % 64 + 128) % 64 = k % 64 := by omega
  rw [follow, byte, if_pos ⟨lower, upper⟩, bits]

theorem first_of_lead {byte : UInt8} {lead : Lead} {bytes rest : List UInt8} {n : Nat}
    (leads : lead? byte = some lead)
    (follows : follow lead.more lead.low lead.high lead.bits bytes = (some n, rest)) :
    first byte bytes = (some (Char.ofNat n), rest) := by
  simp only [first, leads, follows, Option.map_some]

theorem first_two {n : Nat} (least : 0x80 ≤ n) (most : n ≤ 0x7FF) (rest : List UInt8) :
    first (UInt8.ofNat (n / 64 % 32 + 192)) (UInt8.ofNat (n % 64 + 128) :: rest) =
      (some (Char.ofNat n), rest) := by
  have byte : (UInt8.ofNat (n / 64 % 32 + 192)).toNat = n / 64 + 192 := by
    rw [toNat_ofNat (by omega)]
    omega
  have value : n / 64 * 64 + n % 64 = n := by omega
  have leads : lead? (UInt8.ofNat (n / 64 % 32 + 192)) = some { more := 1, bits := n / 64 } := by
    simp only [lead?, byte, Nat.add_sub_cancel]
    rw [if_neg (by omega), if_neg (by omega), if_pos (by omega)]
  refine first_of_lead leads ?_
  dsimp only
  rw [follow_tail _ (by omega) (by omega), value]
  rfl

theorem first_three {n : Nat} (least : 0x800 ≤ n) (most : n ≤ 0xFFFF)
    (scalar : n < 0xD800 ∨ 0xDFFF < n) (rest : List UInt8) :
    first (UInt8.ofNat (n / 4096 % 16 + 224))
        (UInt8.ofNat (n / 64 % 64 + 128) :: UInt8.ofNat (n % 64 + 128) :: rest) =
      (some (Char.ofNat n), rest) := by
  have byte : (UInt8.ofNat (n / 4096 % 16 + 224)).toNat = n / 4096 + 224 := by
    rw [toNat_ofNat (by omega)]
    omega
  have value : (n / 4096 * 64 + n / 64 % 64) * 64 + n % 64 = n := by omega
  have leads : lead? (UInt8.ofNat (n / 4096 % 16 + 224)) = some
      { more := 2, bits := n / 4096, low := if n / 4096 + 224 = 0xE0 then 0xA0 else 0x80,
        high := if n / 4096 + 224 = 0xED then 0x9F else 0xBF } := by
    simp only [lead?, byte, Nat.add_sub_cancel]
    rw [if_neg (by omega), if_neg (by omega), if_neg (by omega), if_pos (by omega)]
  refine first_of_lead leads ?_
  dsimp only
  rw [follow_tail _ (by split <;> omega) (by split <;> omega),
    follow_tail _ (by omega) (by omega), value]
  rfl

theorem first_four {n : Nat} (least : 0x10000 ≤ n) (most : n < 0x110000) (rest : List UInt8) :
    first (UInt8.ofNat (n / 262144 % 8 + 240))
        (UInt8.ofNat (n / 4096 % 64 + 128) :: UInt8.ofNat (n / 64 % 64 + 128) ::
          UInt8.ofNat (n % 64 + 128) :: rest) =
      (some (Char.ofNat n), rest) := by
  have byte : (UInt8.ofNat (n / 262144 % 8 + 240)).toNat = n / 262144 + 240 := by
    rw [toNat_ofNat (by omega)]
    omega
  have value : ((n / 262144 * 64 + n / 4096 % 64) * 64 + n / 64 % 64) * 64 + n % 64 = n := by
    omega
  have leads : lead? (UInt8.ofNat (n / 262144 % 8 + 240)) = some
      { more := 3, bits := n / 262144, low := if n / 262144 + 240 = 0xF0 then 0x90 else 0x80,
        high := if n / 262144 + 240 = 0xF4 then 0x8F else 0xBF } := by
    simp only [lead?, byte, Nat.add_sub_cancel]
    rw [if_neg (by omega), if_neg (by omega), if_neg (by omega), if_neg (by omega),
      if_pos (by omega)]
  refine first_of_lead leads ?_
  dsimp only
  rw [follow_tail _ (by split <;> omega) (by split <;> omega),
    follow_tail _ (by omega) (by omega), follow_tail _ (by omega) (by omega), value]
  rfl

/-- The bytes of a character are read as that character, whatever comes after them. -/
theorem first_encoded (c : Char) (rest : List UInt8) :
    ∃ byte bytes, String.utf8EncodeChar c = byte :: bytes ∧
      first byte (bytes ++ rest) = (some c, rest) := by
  have valid : c.toNat < 0xD800 ∨ 0xDFFF < c.toNat ∧ c.toNat < 0x110000 := c.valid
  have value : c.val.toNat = c.toNat := rfl
  have read : Char.ofNat c.toNat = c := Char.ofNat_toNat c
  unfold String.utf8EncodeChar
  simp only [value]
  generalize c.toNat = n at valid read
  subst read
  split
  · have leads : lead? (UInt8.ofNat n) = some { more := 0, bits := n } := by
      simp only [lead?, toNat_ofNat (show n < 256 by omega)]
      rw [if_pos (by omega)]
    exact ⟨_, _, rfl, first_of_lead leads rfl⟩
  · split
    · exact ⟨_, _, rfl, first_two (by omega) (by omega) rest⟩
    · split
      · exact ⟨_, _, rfl, first_three (by omega) (by omega) (by omega) rest⟩
      · exact ⟨_, _, rfl, first_four (by omega) (by omega) rest⟩

theorem encode_cons (c : Char) (text : List Char) :
    encode (c :: text) = String.utf8EncodeChar c ++ encode text := List.flatMap_cons

theorem encode_append (a b : List Char) : encode (a ++ b) = encode a ++ encode b :=
  List.flatMap_append

theorem lossy_encode (text : List Char) : lossy (encode text) = text := by
  induction text with
  | nil => simp [encode, lossy]
  | cons c text ih =>
    obtain ⟨byte, bytes, written, read⟩ := first_encoded c (encode text)
    rw [encode_cons, written, List.cons_append, lossy, read, ih]
    rfl

theorem single_encoded (c : Char) : single? (String.utf8EncodeChar c) = some c := by
  obtain ⟨byte, bytes, written, read⟩ := first_encoded c []
  rw [List.append_nil] at read
  rw [written, single?, read]

theorem encoded_ascii {c : Char} (low : c.toNat < 0x80) :
    String.utf8EncodeChar c = [UInt8.ofNat c.toNat] :=
  if_pos (Nat.le_of_lt_succ low)

theorem encoded_high {c : Char} (high : 0x80 ≤ c.toNat) :
    ∀ byte ∈ String.utf8EncodeChar c, 0x80 ≤ byte.toNat := by
  have wide : ¬ c.val.toNat ≤ 0x7F := Nat.not_le_of_lt high
  have above : ∀ n, 128 ≤ n → n < 256 → 0x80 ≤ (UInt8.ofNat n).toNat := by
    intro n least most
    rw [toNat_ofNat most]
    exact least
  intro byte mem
  unfold String.utf8EncodeChar at mem
  simp only [if_neg wide] at mem
  split at mem
  · simp only [List.mem_cons, List.not_mem_nil, or_false] at mem
    rcases mem with rfl | rfl <;> exact above _ (by omega) (by omega)
  · split at mem
    · simp only [List.mem_cons, List.not_mem_nil, or_false] at mem
      rcases mem with rfl | rfl | rfl <;> exact above _ (by omega) (by omega)
    · simp only [List.mem_cons, List.not_mem_nil, or_false] at mem
      rcases mem with rfl | rfl | rfl | rfl <;> exact above _ (by omega) (by omega)

theorem length_follow {more low high value n : Nat} {bytes rest : List UInt8}
    (follows : follow more low high value bytes = (some n, rest)) :
    bytes.length = more + rest.length := by
  induction more generalizing low high value bytes with
  | zero =>
    cases follows
    exact (Nat.zero_add _).symm
  | succ more ih =>
    cases bytes with
    | nil => cases follows
    | cons byte bytes =>
      rw [follow] at follows
      split at follows
      · rw [List.length_cons, ih follows]
        omega
      · cases follows

/-- A lead byte tells how many bytes its character takes. -/
theorem lead_of_first {byte : UInt8} {bytes rest : List UInt8} {c : Char}
    (read : first byte bytes = (some c, rest)) :
    ∃ lead, lead? byte = some lead ∧ bytes.length = lead.more + rest.length := by
  unfold first at read
  split at read
  · cases read
  · next lead leads =>
    have parts := Prod.mk.inj read
    obtain ⟨n, found, _⟩ := Option.map_eq_some_iff.mp parts.1
    exact ⟨lead, leads, length_follow (Prod.ext found parts.2)⟩

theorem high_of_follow {more low high value n : Nat} {bytes : List UInt8} (least : 0x80 ≤ low)
    (follows : follow more low high value bytes = (some n, [])) :
    ∀ byte ∈ bytes, 0x80 ≤ byte.toNat := by
  induction more generalizing low high value bytes with
  | zero =>
    cases follows
    exact nofun
  | succ more ih =>
    cases bytes with
    | nil => exact nofun
    | cons byte bytes =>
      rw [follow] at follows
      split at follows
      · next inside =>
        intro b mem
        cases mem with
        | head => exact Nat.le_trans least inside.1
        | tail _ mem => exact ih (Nat.le_refl _) follows b mem
      · cases follows

theorem low_of_lead {byte : UInt8} {lead : Lead} (leads : lead? byte = some lead) :
    0x80 ≤ lead.low := by
  simp only [lead?] at leads
  grind

/-- No byte but the first of a character is an ASCII one. -/
theorem high_of_single {byte : UInt8} {bytes : List UInt8} {c : Char}
    (read : single? (byte :: bytes) = some c) : ∀ b ∈ bytes, 0x80 ≤ b.toNat := by
  simp only [single?] at read
  split at read
  · next found =>
    simp only [first] at found
    split at found
    · cases found
    · next lead leads =>
      obtain ⟨value, rest⟩ := Prod.mk.inj found
      obtain ⟨n, follows, _⟩ := Option.map_eq_some_iff.mp value
      exact high_of_follow (low_of_lead leads) (Prod.ext follows rest)
  · cases read

end LSystem.Text.Utf8
