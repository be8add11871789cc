import LSystem.Proofs.Terminal.Chunks
import LSystem.Proofs.Text.Utf8

/-! What a terminal sends for keys and pastes, and that the decoder undoes it. Every input is
taken back whole and nothing of its neighbours, so that inputs may follow each other in any
order. -/

namespace LSystem.Terminal

open Text

/-- The keys that end with a letter of their own. -/
inductive LetterKey where
  | up
  | down
  | right
  | left
  | home
  | endKey
deriving DecidableEq, Repr

namespace LetterKey

def key : LetterKey → Key
  | up => .up
  | down => .down
  | right => .right
  | left => .left
  | home => .home
  | endKey => .endKey

def letter : LetterKey → Char
  | up => 'A'
  | down => 'B'
  | right => 'C'
  | left => 'D'
  | home => 'H'
  | endKey => 'F'

end LetterKey

/-- What ends a paste. A pasted text cannot contain it. -/
def pasteEnd : List Char := ['\x1b', '[', '2', '0', '1', '~']

/-- What a user does that a terminal has a sequence for. -/
inductive Input where
  | typed (ch : Char) (shows : 0x20 ≤ ch.toNat ∧ ch.toNat ≠ 0x7F)
  | enter
  | tab
  | backTab
  | backspace
  | ctrl (letter : Char) (free : 'a' ≤ letter ∧ letter ≤ 'z' ∧ letter ∉ ['h', 'i', 'j', 'm'])
  | alt (ch : Char) (plain : ' ' ≤ ch ∧ ch ≤ '~' ∧ ch ≠ '[' ∧ ch ≠ 'O')
  | letterKey (k : LetterKey) (m : Modifiers)
  | delete (m : Modifiers)
  | paste (text : String) (closed : ¬ pasteEnd <:+: text.toList)

namespace Input

def event : Input → Event
  | typed ch _ => .press (.char ch)
  | enter => .press .enter
  | tab => .press .tab
  | backTab => .key .tab { shift := true }
  | backspace => .press .backspace
  | ctrl letter _ => .key (.char letter) { ctrl := true }
  | alt ch _ => .key (.char ch) { alt := true }
  | letterKey k m => .key k.key m
  | delete m => .key .delete m
  | paste text _ => .paste text

/-- The digit for modifiers: their mask and one more. -/
def digit (m : Modifiers) : Char := Nat.digitChar (1 + m.mask)

def sent : Input → List Char
  | typed ch _ => [ch]
  | enter => ['\r']
  | tab => ['\t']
  | backTab => ['\x1b', '[', 'Z']
  | backspace => ['\x7f']
  | ctrl letter _ => [Char.ofNat (letter.toNat - 0x60)]
  | alt ch _ => ['\x1b', ch]
  | letterKey k m =>
    if m = {} then ['\x1b', '[', k.letter] else ['\x1b', '[', '1', ';', digit m, k.letter]
  | delete m =>
    if m = {} then ['\x1b', '[', '3', '~'] else ['\x1b', '[', '3', ';', digit m, '~']
  | paste text _ => ['\x1b', '[', '2', '0', '0', '~'] ++ text.toList ++ pasteEnd

def bytes (i : Input) : List UInt8 := Utf8.encode i.sent

end Input

namespace Decoder

theorem step_of_decode {byte : UInt8} (rest : List UInt8) (plain : byte ≠ 0x1B) :
    step ⟨byte :: rest, false⟩ =
      (decode byte rest).map fun (event, after) => (event, ⟨after, false⟩) := by
  have other : (0x1B == byte) = false := by simpa using plain.symm
  have apart : (byte == 0x1B) = false := by simpa using plain
  simp [step, pasteOpener, mayOpenPaste, List.isPrefixOf, other, apart]

theorem feed_of_step {bytes : List UInt8} {event : Event}
    (taken : step ⟨bytes, false⟩ = some (some event, fresh)) :
    fresh.feed bytes = ([event], fresh) := by
  have idle : fresh.drain = ([], fresh) := drain_of_none rfl
  have whole : fresh.feed bytes = drain ⟨bytes, false⟩ := rfl
  rw [whole, drain_of_some taken, idle]
  rfl

theorem ascii_induction {P : Char → Prop} (each : ∀ n < 0x80, P (Char.ofNat n)) (c : Char)
    (low : c.toNat < 0x80) : P c := by
  have holds := each c.toNat low
  rwa [Char.ofNat_toNat] at holds

theorem step_printable (ch : Char) (low : ch.toNat < 0x80) :
    0x20 ≤ ch.toNat ∧ ch.toNat ≠ 0x7F →
      step ⟨Utf8.encode [ch], false⟩ = some (some (.press (.char ch)), fresh) := by
  revert ch
  exact ascii_induction (by decide)

theorem step_ctrl (letter : Char) (low : letter.toNat < 0x80) :
    'a' ≤ letter ∧ letter ≤ 'z' ∧ letter ∉ ['h', 'i', 'j', 'm'] →
      step ⟨Utf8.encode [Char.ofNat (letter.toNat - 0x60)], false⟩ =
        some (some (.key (.char letter) { ctrl := true }), fresh) := by
  revert letter
  exact ascii_induction (by decide)

theorem step_alt (ch : Char) (low : ch.toNat < 0x80) :
    ' ' ≤ ch ∧ ch ≤ '~' ∧ ch ≠ '[' ∧ ch ≠ 'O' →
      step ⟨Utf8.encode ['\x1b', ch], false⟩ =
        some (some (.key (.char ch) { alt := true }), fresh) := by
  revert ch
  exact ascii_induction (by decide)

theorem announced_of_lead {byte : UInt8} {lead : Utf8.Lead} (leads : Utf8.lead? byte = some lead)
    (high : 0x80 ≤ byte.toNat) : 0xC0 ≤ byte.toNat ∧ announced byte = lead.more + 1 := by
  simp only [announced, UInt8.lt_iff_toNat_lt, UInt8.reduceToNat]
  simp only [Utf8.lead?] at leads
  split at leads
  · omega
  · split at leads
    · contradiction
    · split at leads
      · cases leads
        exact ⟨by omega, if_pos (by omega)⟩
      · split at leads
        · cases leads
          rw [if_neg (by omega), if_pos (by omega)]
          exact ⟨by omega, rfl⟩
        · split at leads
          · cases leads
            rw [if_neg (by omega), if_neg (by omega), if_pos (by omega)]
            exact ⟨by omega, rfl⟩
          · contradiction

theorem decode_high {byte : UInt8} (rest : List UInt8) (high : 0xC0 ≤ byte.toNat) :
    decode byte rest = longChar byte rest := by
  have apart : ∀ small : UInt8, small.toNat < 0xC0 → byte ≠ small := by
    rintro small low rfl
    omega
  have above : ¬ (0x01 ≤ byte ∧ byte ≤ 0x1A) := by
    simp only [UInt8.le_iff_toNat_le, UInt8.reduceToNat]
    omega
  have hidden : ¬ isPrintable byte := by
    simp only [isPrintable, Bool.and_eq_true, decide_eq_true_eq, UInt8.le_iff_toNat_le,
      UInt8.reduceToNat]
    omega
  have starts : 0xC0 ≤ byte := high
  simp only [decode, apart 0x1B (by decide), apart 0x08 (by decide), apart 0x7F (by decide),
    apart 0x09 (by decide), apart 0x0A (by decide), apart 0x0D (by decide), or_self, if_false,
    if_neg above, if_neg hidden, if_pos starts]

theorem step_high {c : Char} (high : 0x80 ≤ c.toNat) :
    step ⟨String.utf8EncodeChar c, false⟩ = some (some (.press (.char c)), fresh) := by
  obtain ⟨byte, bytes, written, read⟩ := Utf8.first_encoded c []
  have first : 0x80 ≤ byte.toNat := by
    apply Utf8.encoded_high high
    rw [written]
    exact List.mem_cons_self
  obtain ⟨lead, leads, length⟩ := Utf8.lead_of_first read
  obtain ⟨least, count⟩ := announced_of_lead leads first
  have whole : announced byte = (byte :: bytes).length := by
    rw [count, List.length_cons]
    simpa using length.symm
  have single := Utf8.single_encoded c
  have plain : byte ≠ 0x1B := by
    rintro rfl
    contradiction
  rw [written] at single ⊢
  rw [step_of_decode bytes plain, decode_high bytes least]
  simp only [longChar, whole, List.take_length, single]
  simp [fresh]

/-! A paste: the first end mark is the one behind the text. -/

theorem splitPaste_pass {bytes : List UInt8} (rest : List UInt8)
    (plain : ∀ byte ∈ bytes, byte ≠ 0x1B) :
    splitPaste (bytes ++ rest) =
      (splitPaste rest).map fun (text, after) => (bytes ++ text, after) := by
  induction bytes with
  | nil => simp
  | cons byte bytes ih =>
    have head := plain byte List.mem_cons_self
    have other : (0x1B == byte) = false := by simpa using head.symm
    have tail := ih fun b mem => plain b (List.mem_cons_of_mem _ mem)
    rw [List.cons_append, splitPaste, tail]
    simp [pasteCloser, List.isPrefixOf, other, Function.comp_def]

/-- An ASCII mark that begins the bytes of a text begins the text. -/
theorem prefix_of_encode {mark text : List Char} (ascii : ∀ c ∈ mark, c.toNat < 0x80)
    (begins : Utf8.encode mark <+: Utf8.encode text) : mark <+: text := by
  induction mark generalizing text with
  | nil => exact List.nil_prefix
  | cons c mark ih =>
    have low := ascii c List.mem_cons_self
    rw [Utf8.encode_cons, Utf8.encoded_ascii low] at begins
    cases text with
    | nil => simp [Utf8.encode] at begins
    | cons d text =>
      by_cases narrow : d.toNat < 0x80
      · rw [Utf8.encode_cons, Utf8.encoded_ascii narrow] at begins
        obtain ⟨same, begins⟩ := List.cons_prefix_cons.mp begins
        have value := congrArg UInt8.toNat same
        rw [Utf8.toNat_ofNat (by omega), Utf8.toNat_ofNat (by omega)] at value
        have rest := ih (fun c mem => ascii c (List.mem_cons_of_mem _ mem)) begins
        exact List.cons_prefix_cons.mpr ⟨Char.toNat_inj.mp value, rest⟩
      · obtain ⟨byte, bytes, written, _⟩ := Utf8.first_encoded d []
        have high : 0x80 ≤ byte.toNat := by
          apply Utf8.encoded_high (Nat.le_of_not_lt narrow)
          rw [written]
          exact List.mem_cons_self
        rw [Utf8.encode_cons, written] at begins
        have value := congrArg UInt8.toNat (List.cons_prefix_cons.mp begins).1
        rw [Utf8.toNat_ofNat (by omega)] at value
        omega

/-- The end mark has no second escape, so none begins inside a text and ends behind it. -/
theorem not_pasteEnd_prefix {text : List Char} (nonempty : text ≠ [])
    (closed : ¬ pasteEnd <:+: text) : ¬ pasteEnd <+: text ++ pasteEnd := by
  intro begins
  rcases List.prefix_or_prefix_of_prefix begins (List.prefix_append text _) with inside | beyond
  · exact closed inside.isInfix
  · obtain ⟨rest, parts⟩ := beyond
    have again : rest <+: pasteEnd := by
      rw [← parts, List.prefix_append_right_inj, parts] at begins
      exact begins
    cases rest with
    | nil =>
      rw [List.append_nil] at parts
      exact closed (parts ▸ List.infix_rfl)
    | cons d rest =>
      have escape : d = '\x1b' := (List.cons_prefix_cons.mp again).1
      cases text with
      | nil => contradiction
      | cons c text =>
        have tail : text ++ d :: rest = pasteEnd.tail := congrArg List.tail parts
        have second : '\x1b' ∈ pasteEnd.tail := by
          rw [← tail, escape]
          exact List.mem_append_right _ List.mem_cons_self
        exact absurd second (by decide)

theorem encode_plain {c : Char} (plain : c ≠ '\x1b') :
    ∀ byte ∈ String.utf8EncodeChar c, byte ≠ 0x1B := by
  rintro byte mem rfl
  by_cases low : c.toNat < 0x80
  · rw [Utf8.encoded_ascii low, List.mem_singleton] at mem
    have value := congrArg UInt8.toNat mem
    rw [Utf8.toNat_ofNat (by omega)] at value
    exact plain (Char.toNat_inj.mp value.symm)
  · have high := Utf8.encoded_high (Nat.le_of_not_lt low) _ mem
    contradiction

theorem splitPaste_encode (text : List Char) (closed : ¬ pasteEnd <:+: text) :
    splitPaste (Utf8.encode text ++ pasteCloser) = some (Utf8.encode text, []) := by
  have mark : Utf8.encode pasteEnd = pasteCloser := by decide
  have ascii : ∀ c ∈ pasteEnd, c.toNat < 0x80 := by simp [pasteEnd]
  induction text with
  | nil => decide
  | cons c text ih =>
    have rest := ih fun inside => closed (List.infix_cons inside)
    by_cases escape : c = '\x1b'
    · have never : ¬ pasteCloser.isPrefixOf (0x1B :: (Utf8.encode text ++ pasteCloser)) := by
        rw [List.isPrefixOf_iff_prefix, ← mark, ← Utf8.encode_append]
        intro begins
        have within : Utf8.encode pasteEnd <+: Utf8.encode (c :: text ++ pasteEnd) := by
          rw [escape]
          exact begins
        exact not_pasteEnd_prefix (List.cons_ne_nil _ _) closed
          (prefix_of_encode ascii within)
      have one : Utf8.encode (c :: text) = 0x1B :: Utf8.encode text := by
        rw [escape]
        rfl
      rw [one, List.cons_append, splitPaste, if_neg never, rest]
      rfl
    · rw [Utf8.encode_cons, List.append_assoc, splitPaste_pass _ (encode_plain escape), rest]
      rfl

theorem step_in_paste {bytes text after : List UInt8}
    (found : splitPaste bytes = some (text, after)) :
    step ⟨bytes, true⟩ = some (some (pasted text), ⟨after, false⟩) := by
  cases bytes with
  | nil => contradiction
  | cons byte rest => simp only [step, if_true, found, Option.map_some]

theorem feed_paste (text : List Char) (closed : ¬ pasteEnd <:+: text) :
    fresh.feed (pasteOpener ++ Utf8.encode text ++ pasteCloser) =
      ([.paste (String.ofList text)], fresh) := by
  have mark : step ⟨pasteOpener, false⟩ = some (none, ⟨[], true⟩) := rfl
  have opens : step ⟨pasteOpener ++ (Utf8.encode text ++ pasteCloser), false⟩ =
      some (none, ⟨Utf8.encode text ++ pasteCloser, true⟩) := step_append _ mark
  have closes := step_in_paste (splitPaste_encode text closed)
  have idle : fresh.drain = ([], fresh) := drain_of_none rfl
  have whole : fresh.feed (pasteOpener ++ Utf8.encode text ++ pasteCloser) =
      drain ⟨pasteOpener ++ (Utf8.encode text ++ pasteCloser), false⟩ := by
    rw [List.append_assoc]
    rfl
  rw [whole, drain_of_some opens, drain_of_some closes, pasted, Utf8.lossy_encode]
  change ([Event.paste (String.ofList text)] ++ fresh.drain.1, fresh.drain.2) = _
  rw [idle]
  rfl

theorem feed_letterKey (k : LetterKey) (m : Modifiers) :
    fresh.feed (Input.letterKey k m).bytes = ([(Input.letterKey k m).event], fresh) := by
  apply feed_of_step
  obtain ⟨_ | _, _ | _, _ | _⟩ := m <;> cases k <;> rfl

theorem feed_delete (m : Modifiers) :
    fresh.feed (Input.delete m).bytes = ([(Input.delete m).event], fresh) := by
  apply feed_of_step
  obtain ⟨_ | _, _ | _, _ | _⟩ := m <;> rfl

theorem feed_typed (ch : Char) (shows : 0x20 ≤ ch.toNat ∧ ch.toNat ≠ 0x7F) :
    fresh.feed (Input.typed ch shows).bytes = ([(Input.typed ch shows).event], fresh) := by
  apply feed_of_step
  by_cases low : ch.toNat < 0x80
  · exact step_printable ch low shows
  · have one : (Input.typed ch shows).bytes = String.utf8EncodeChar ch := List.append_nil _
    rw [one]
    exact step_high (Nat.le_of_not_lt low)

/-- Every input is taken back, from its own bytes alone. -/
theorem feed_input (i : Input) : fresh.feed i.bytes = ([i.event], fresh) := by
  cases i with
  | typed ch shows => exact feed_typed ch shows
  | enter => exact feed_of_step rfl
  | tab => exact feed_of_step rfl
  | backTab => exact feed_of_step rfl
  | backspace => exact feed_of_step rfl
  | ctrl letter free =>
    have low : letter.toNat < 0x80 := Nat.lt_of_le_of_lt free.2.1 (by decide)
    exact feed_of_step (step_ctrl letter low free)
  | alt ch plain =>
    have low : ch.toNat < 0x80 := Nat.lt_of_le_of_lt plain.2.1 (by decide)
    exact feed_of_step (step_alt ch low plain)
  | letterKey k m => exact feed_letterKey k m
  | delete m => exact feed_delete m
  | paste text closed =>
    have marks : (Input.paste text closed).bytes =
        pasteOpener ++ Utf8.encode text.toList ++ pasteCloser := by
      rw [Input.bytes, Input.sent, Utf8.encode_append, Utf8.encode_append]
      rfl
    rw [marks, feed_paste _ closed, String.ofList_toList]
    rfl

/-- Decoding undoes sending: what a user did in any order comes back as its events, each once and
in order, and nothing waits. -/
theorem feed_inputs (inputs : List Input) :
    fresh.feed (inputs.flatMap Input.bytes) = (inputs.map Input.event, fresh) := by
  induction inputs with
  | nil => exact drain_of_none rfl
  | cons i inputs ih =>
    rw [List.flatMap_cons, feed_append, feed_input, ih]
    rfl

/-- A pasted text may hold escapes, the mark before a paste, and all but the end of the mark
behind it. -/
example : ¬ pasteEnd <:+: ['\x1b', '\x1b', '[', '2', '0', '0', '~'] ++ pasteEnd.dropLast := by
  decide

end Decoder
end LSystem.Terminal
