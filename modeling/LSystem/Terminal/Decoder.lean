import LSystem.Terminal.Key
import LSystem.Text.Utf8

/-!
The decoder turns the bytes that a terminal sends into events. Bytes may arrive in any pieces;
those of an unfinished event wait for more. Between the two marks of a paste all bytes are text.
Elsewhere a byte is a character, a control key, or the start of an escape sequence or of a
longer character; what is not understood is dropped.
-/

namespace LSystem.Terminal

/-- The bytes that have not been decoded yet, and whether a paste is open. -/
structure Decoder where
  pending : List UInt8
  inPaste : Bool
deriving DecidableEq, Repr

/-- Outcome of decoding from the front: `none` waits for more bytes; otherwise the event, if
the bytes taken make one, and the bytes after them. -/
abbrev Decoded := Option (Option Event × List UInt8)

namespace Decoder

def fresh : Decoder := ⟨[], false⟩

/-- The mark before pasted text. -/
def pasteOpener : List UInt8 := [0x1B, 0x5B, 0x32, 0x30, 0x30, 0x7E]

/-- The mark after pasted text. -/
def pasteCloser : List UInt8 := [0x1B, 0x5B, 0x32, 0x30, 0x31, 0x7E]

/-- The event of a byte that is a letter typed with Ctrl held down. -/
def ctrlLetter (byte : UInt8) : Event :=
  .key (.char (Char.ofNat (byte.toNat + 'a'.toNat - 1))) { ctrl := true }

def ascii (byte : UInt8) : Char := Char.ofNat byte.toNat

def isPrintable (byte : UInt8) : Bool := 0x20 ≤ byte && byte ≤ 0x7E

/-- The largest value of a parameter; a larger one counts as this. -/
def maxParameter : Nat := Nat.pow 2 16 - 1

/-- The number that the leading digits of a parameter denote; none denote 0. -/
def parameter (field : List UInt8) : Nat :=
  (field.takeWhile fun b => 0x30 ≤ b && b ≤ 0x39).foldl
    (fun n b => min (10 * n + (b.toNat - 0x30)) maxParameter) 0

/-- The parameters of a sequence, which semicolons separate. -/
def parameters (bytes : List UInt8) : List Nat :=
  if bytes = [] then [] else (bytes.splitOn 0x3B).map parameter

/-- The modifiers that a parameter tells: it is their mask and one more. -/
def modifiersOf (parameter : Nat) : Modifiers := .ofMask (parameter - 1)

/-- The key that a letter names at the end of a sequence. -/
def letterKey? (final : UInt8) : Option Key :=
  match final with
  | 0x41 => some .up
  | 0x42 => some .down
  | 0x43 => some .right
  | 0x44 => some .left
  | 0x48 => some .home
  | 0x46 => some .endKey
  | _ => none

/-- The key that a number names in a sequence that ends with a tilde. -/
def numberKey? : Nat → Option Key
  | 1 | 7 => some .home
  | 3 => some .delete
  | 4 | 8 => some .endKey
  | _ => none

/-- The event of a sequence with its parameters and its final byte, if it has one. -/
def sequence? (bytes : List UInt8) (final : UInt8) : Option Event :=
  let parameters := parameters bytes
  let modifiers := (parameters[1]?.map modifiersOf).getD {}
  if final = 0x7E then (numberKey? (parameters[0]?.getD 0)).map fun k => .key k modifiers
  else if final = 0x5A then some (.key .tab { shift := true })
  else (letterKey? final).map fun k => .key k modifiers

/-- Whether a byte can stand before the final byte of a sequence. -/
def isParameter (byte : UInt8) : Bool := 0x20 ≤ byte && byte ≤ 0x3F

def isFinal (byte : UInt8) : Bool := 0x40 ≤ byte && byte ≤ 0x7E

/-- Decodes behind `ESC [`. A byte that is neither parameter nor final ends the sequence too and
is dropped with it. -/
def bracketed (bytes : List UInt8) : Decoded :=
  match bytes.dropWhile isParameter with
  | [] => none
  | final :: rest =>
    some (if isFinal final then sequence? (bytes.takeWhile isParameter) final else none, rest)

/-- Decodes behind `ESC O`, where one byte names a key. -/
def single : List UInt8 → Decoded
  | [] => none
  | byte :: rest => some ((letterKey? byte).map .press, rest)

/-- Decodes behind an escape byte. Before a printable byte it stands for Alt. -/
def afterEscape : List UInt8 → Decoded
  | [] => none
  | byte :: rest =>
    if byte = 0x5B then bracketed rest
    else if byte = 0x4F then single rest
    else if isPrintable byte then some (some (.key (.char (ascii byte)) { alt := true }), rest)
    else some (some (.press .escape), byte :: rest)

/-- Number of bytes of a character that a lead byte announces; 0 if it announces none. -/
def announced (lead : UInt8) : Nat :=
  if lead < 0xE0 then 2 else if lead < 0xF0 then 3 else if lead < 0xF8 then 4 else 0

/-- Decodes a character of several bytes. Of a broken one only the lead byte is dropped. -/
def longChar (lead : UInt8) (rest : List UInt8) : Decoded :=
  let bytes := (lead :: rest).take (announced lead)
  if announced lead = 0 then some (none, rest)
  else if bytes.length < announced lead then none
  else match Text.Utf8.single? bytes with
    | some c => some (some (.press (.char c)), rest.drop (announced lead - 1))
    | none => some (none, rest)

/-- Decodes outside a paste, from `byte` on. -/
def decode (byte : UInt8) (rest : List UInt8) : Decoded :=
  if byte = 0x1B then afterEscape rest
  else if byte = 0x08 ∨ byte = 0x7F then some (some (.press .backspace), rest)
  else if byte = 0x09 then some (some (.press .tab), rest)
  else if byte = 0x0A ∨ byte = 0x0D then some (some (.press .enter), rest)
  else if 0x01 ≤ byte ∧ byte ≤ 0x1A then some (some (ctrlLetter byte), rest)
  else if isPrintable byte then some (some (.press (.char (ascii byte))), rest)
  else if 0xC0 ≤ byte then longChar byte rest
  else some (none, rest)

/-- Whether the bytes may still become the mark before a paste: they are a beginning of it that
goes beyond the escape byte. -/
def mayOpenPaste (bytes : List UInt8) : Bool :=
  2 ≤ bytes.length && bytes.length < pasteOpener.length && bytes.isPrefixOf pasteOpener

/-- The bytes before the first mark that ends a paste, and those after it. -/
def splitPaste : List UInt8 → Option (List UInt8 × List UInt8)
  | [] => none
  | byte :: rest =>
    if pasteCloser.isPrefixOf (byte :: rest) then
      some ([], (byte :: rest).drop pasteCloser.length)
    else (splitPaste rest).map fun (text, after) => (byte :: text, after)

def pasted (bytes : List UInt8) : Event := .paste (String.ofList (Text.Utf8.lossy bytes))

/-- Decodes once from the front: the event, if there is one, and the decoder after it. `none`
waits for more bytes. -/
def step (d : Decoder) : Option (Option Event × Decoder) :=
  match d.pending with
  | [] => none
  | byte :: rest =>
    if d.inPaste then
      (splitPaste (byte :: rest)).map fun (text, after) => (some (pasted text), ⟨after, false⟩)
    else if pasteOpener.isPrefixOf (byte :: rest) then
      some (none, ⟨(byte :: rest).drop pasteOpener.length, true⟩)
    else if mayOpenPaste (byte :: rest) then none
    else (decode byte rest).map fun (event, after) => (event, ⟨after, false⟩)

theorem length_bracketed_le {bytes rest : List UInt8} {event : Option Event}
    (taken : bracketed bytes = some (event, rest)) : rest.length ≤ bytes.length := by
  unfold bracketed at taken
  split at taken
  · cases taken
  · next final after found =>
    cases taken
    have bound := (List.dropWhile_sublist (p := isParameter) (l := bytes)).length_le
    rw [found] at bound
    exact Nat.le_of_succ_le bound

theorem length_single_le {bytes rest : List UInt8} {event : Option Event}
    (taken : single bytes = some (event, rest)) : rest.length ≤ bytes.length := by
  cases bytes with
  | nil => cases taken
  | cons byte bytes =>
    cases taken
    exact Nat.le_succ _

theorem length_afterEscape_le {bytes rest : List UInt8} {event : Option Event}
    (taken : afterEscape bytes = some (event, rest)) : rest.length ≤ bytes.length := by
  cases bytes with
  | nil => cases taken
  | cons byte bytes =>
    rw [afterEscape] at taken
    split at taken
    · exact Nat.le_succ_of_le (length_bracketed_le taken)
    · split at taken
      · exact Nat.le_succ_of_le (length_single_le taken)
      · split at taken <;> cases taken
        · exact Nat.le_succ _
        · exact Nat.le_refl _

theorem length_longChar_le {lead : UInt8} {bytes rest : List UInt8} {event : Option Event}
    (taken : longChar lead bytes = some (event, rest)) : rest.length ≤ bytes.length := by
  unfold longChar at taken
  dsimp only at taken
  split at taken
  · cases taken
    exact Nat.le_refl _
  · split at taken
    · cases taken
    · split at taken <;> cases taken
      · rw [List.length_drop]
        exact Nat.sub_le ..
      · exact Nat.le_refl _

theorem length_decode_le {byte : UInt8} {bytes rest : List UInt8} {event : Option Event}
    (taken : decode byte bytes = some (event, rest)) : rest.length ≤ bytes.length := by
  unfold decode at taken
  split at taken
  · exact length_afterEscape_le taken
  · repeat' split at taken
    all_goals first
      | exact length_longChar_le taken
      | (cases taken; exact Nat.le_refl _)

theorem length_splitPaste_lt {bytes text after : List UInt8}
    (found : splitPaste bytes = some (text, after)) : after.length < bytes.length := by
  induction bytes generalizing text with
  | nil => cases found
  | cons byte bytes ih =>
    unfold splitPaste at found
    split at found
    · cases found
      simp only [List.length_drop, List.length_cons, pasteCloser]
      omega
    · obtain ⟨⟨inner, rest⟩, split, same⟩ := Option.map_eq_some_iff.mp found
      cases same
      exact Nat.lt_succ_of_lt (ih split)

/-- Every step takes at least one byte. -/
theorem length_step_lt {d next : Decoder} {event : Option Event}
    (taken : d.step = some (event, next)) : next.pending.length < d.pending.length := by
  unfold step at taken
  split at taken
  · cases taken
  · next byte rest pending =>
    rw [pending]
    split at taken
    · obtain ⟨⟨text, after⟩, found, same⟩ := Option.map_eq_some_iff.mp taken
      cases same
      exact length_splitPaste_lt found
    · split at taken
      · cases taken
        simp only [List.length_drop, List.length_cons, pasteOpener]
        omega
      · split at taken
        · cases taken
        · obtain ⟨⟨event, after⟩, decoded, same⟩ := Option.map_eq_some_iff.mp taken
          cases same
          exact Nat.lt_succ_of_le (length_decode_le decoded)

/-- Decodes as far as the bytes go. -/
def drain (d : Decoder) : List Event × Decoder :=
  match taken : d.step with
  | none => ([], d)
  | some (event, next) =>
    have := length_step_lt taken
    (event.toList ++ next.drain.1, next.drain.2)
termination_by d.pending.length

/-- Takes more bytes. Gives the events that are complete with them. -/
def feed (d : Decoder) (bytes : List UInt8) : List Event × Decoder :=
  { d with pending := d.pending ++ bytes }.drain

/-- The key that a byte is when nothing follows that could give it another meaning. -/
def alone (byte : UInt8) : Option Event :=
  if byte = 0x1B then some (.press .escape)
  else if byte = 0x7F then some (.press .backspace)
  else if isPrintable byte then some (.press (.char (ascii byte)))
  else if 0x01 ≤ byte ∧ byte ≤ 0x1A then some (ctrlLetter byte)
  else none

/-- Decodes the bytes that wait as if no more came: in a paste as its text, elsewhere each for
itself. -/
def flush (d : Decoder) : List Event :=
  if d.inPaste then if d.pending = [] then [] else [pasted d.pending]
  else d.pending.filterMap alone

end Decoder

end LSystem.Terminal
