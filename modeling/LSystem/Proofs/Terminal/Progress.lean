import LSystem.Proofs.Terminal.Keyboard
import Mathlib.Data.List.TakeWhile

/-! The decoder makes progress. Each step takes at least one byte and none that is not there, so that
decoding ends; and it ends only where the bytes that wait are the beginning of one escape sequence
or of one character, or the text of a paste without its closing mark. -/

namespace LSystem.Terminal

/-- What the owner of a decoder can do with it. -/
inductive Call where
  | feed (bytes : List UInt8)
  | flush

namespace Decoder

def perform (d : Decoder) : Call → Decoder
  | .feed bytes => (d.feed bytes).2
  | .flush => fresh

def performAll (d : Decoder) (calls : List Call) : Decoder := calls.foldl perform d

/-! ### How much a step takes -/

/-- The number of bytes taken behind an escape byte, with it. -/
def widthOfEscape : List UInt8 → Nat
  | [] => 1
  | byte :: rest =>
    if byte = 0x5B then (rest.takeWhile isParameter).length + 3
    else if byte = 0x4F then 3
    else if isPrintable byte then 2
    else 1

/-- The number of bytes of a character; of a broken one only the lead byte is taken. -/
def widthOfLong (lead : UInt8) (rest : List UInt8) : Nat :=
  if (Text.Utf8.single? ((lead :: rest).take (announced lead))).isSome then announced lead else 1

/-- The number of bytes that a step takes. -/
def width (d : Decoder) : Nat :=
  match d.pending with
  | [] => 0
  | byte :: rest =>
    if d.inPaste then
      ((splitPaste (byte :: rest)).map (·.1.length)).getD 0 + pasteCloser.length
    else if pasteOpener.isPrefixOf (byte :: rest) then pasteOpener.length
    else if byte = 0x1B then widthOfEscape rest
    else if 0xC0 ≤ byte then widthOfLong byte rest
    else 1

/-- The first `n` bytes are taken; there are so many. -/
def Takes (n : Nat) (bytes rest : List UInt8) : Prop := n ≤ bytes.length ∧ rest = bytes.drop n

section

variable {byte : UInt8} {bytes rest : List UInt8} {event : Option Event} {n : Nat}

theorem Takes.cons (takes : Takes n bytes rest) : Takes (n + 1) (byte :: bytes) rest :=
  ⟨Nat.succ_le_succ takes.1, takes.2⟩

theorem takes_one (byte : UInt8) (bytes : List UInt8) : Takes 1 (byte :: bytes) bytes :=
  ⟨Nat.succ_le_succ (Nat.zero_le _), rfl⟩

theorem bracketed_takes (taken : bracketed bytes = some (event, rest)) :
    Takes ((bytes.takeWhile isParameter).length + 1) bytes rest := by
  unfold bracketed at taken
  split at taken
  · contradiction
  · next final after found =>
    cases taken
    have parts := bytes.takeWhile_append_dropWhile (p := isParameter)
    rw [found] at parts
    generalize bytes.takeWhile isParameter = parameters at parts ⊢
    subst parts
    exact ⟨by simp, by simp⟩

theorem afterEscape_takes (taken : afterEscape bytes = some (event, rest)) :
    Takes (widthOfEscape bytes) (0x1B :: bytes) rest := by
  cases bytes with
  | nil => contradiction
  | cons byte bytes =>
    simp only [afterEscape] at taken
    simp only [widthOfEscape]
    split at taken
    · next bracket =>
      rw [if_pos bracket]
      exact (bracketed_takes taken).cons.cons
    · next other =>
      rw [if_neg other]
      split at taken
      · next letter =>
        rw [if_pos letter]
        cases bytes with
        | nil => contradiction
        | cons key bytes =>
          cases taken
          exact (takes_one key _).cons.cons
      · next other =>
        rw [if_neg other]
        split at taken
        · next printable =>
          cases taken
          rw [if_pos printable]
          exact (takes_one byte _).cons
        · next other =>
          cases taken
          rw [if_neg other]
          exact takes_one _ _

theorem longChar_takes {lead : UInt8} (taken : longChar lead bytes = some (event, rest)) :
    Takes (widthOfLong lead bytes) (lead :: bytes) rest := by
  simp only [longChar] at taken
  split at taken
  · next none =>
    cases taken
    rw [widthOfLong, none]
    exact takes_one lead _
  · next announces =>
    split at taken
    · contradiction
    · next enough =>
      split at taken
      · next c read =>
        cases taken
        rw [widthOfLong, read]
        obtain ⟨more, announced⟩ := Nat.exists_eq_succ_of_ne_zero announces
        rw [announced] at enough ⊢
        simp only [List.length_take, List.length_cons] at enough
        refine ⟨?_, rfl⟩
        simp only [Option.isSome_some, if_true, List.length_cons]
        omega
      · next read =>
        cases taken
        rw [widthOfLong, read]
        exact takes_one lead _

theorem splitPaste_takes {text : List UInt8} (found : splitPaste bytes = some (text, rest)) :
    Takes (text.length + pasteCloser.length) bytes rest := by
  induction bytes generalizing text with
  | nil => contradiction
  | cons byte bytes ih =>
    unfold splitPaste at found
    split at found
    · next closes =>
      cases found
      rw [List.length_nil, Nat.zero_add]
      exact ⟨(List.isPrefixOf_iff_prefix.mp closes).length_le, rfl⟩
    · obtain ⟨⟨inner, after⟩, split, same⟩ := Option.map_eq_some_iff.mp found
      cases same
      have takes : Takes _ (byte :: bytes) rest := (ih split).cons
      rwa [Nat.add_right_comm] at takes

/-- A byte that starts neither an escape sequence nor a longer character is decoded at once, and
what follows does not matter. -/
theorem decode_short (escape : byte ≠ 0x1B) (low : ¬ 0xC0 ≤ byte) :
    ∃ event, ∀ rest, decode byte rest = some (event, rest) := by
  refine ⟨(decode byte []).bind Prod.fst, fun rest => ?_⟩
  unfold decode
  rw [if_neg escape, if_neg escape]
  repeat' split
  all_goals rfl

theorem step_takes {d next : Decoder} (taken : d.step = some (event, next)) :
    Takes d.width d.pending next.pending := by
  obtain ⟨bytes, inPaste⟩ := d
  cases bytes with
  | nil => contradiction
  | cons byte bytes =>
    simp only [step] at taken
    simp only [width]
    split at taken
    · next open_ =>
      rw [if_pos open_]
      obtain ⟨⟨text, after⟩, found, same⟩ := Option.map_eq_some_iff.mp taken
      cases same
      rw [found]
      exact splitPaste_takes found
    · next closed =>
      rw [if_neg closed]
      split at taken
      · next opens =>
        cases taken
        rw [if_pos opens]
        exact ⟨(List.isPrefixOf_iff_prefix.mp opens).length_le, rfl⟩
      · next other =>
        rw [if_neg other]
        split at taken
        · contradiction
        · obtain ⟨⟨event, after⟩, decoded, same⟩ := Option.map_eq_some_iff.mp taken
          cases same
          by_cases escape : byte = 0x1B
          · subst escape
            rw [if_pos rfl]
            exact afterEscape_takes decoded
          · rw [if_neg escape]
            by_cases high : 0xC0 ≤ byte
            · rw [if_pos high]
              rw [decode_high _ high] at decoded
              exact longChar_takes decoded
            · rw [if_neg high]
              obtain ⟨_, short⟩ := decode_short escape high
              cases decoded.symm.trans (short bytes)
              exact takes_one byte bytes

theorem one_le_width {d next : Decoder} (taken : d.step = some (event, next)) : 1 ≤ d.width := by
  have shorter := length_step_lt taken
  rw [(step_takes taken).2, List.length_drop] at shorter
  omega

end

/-- The events of `n` steps, the number of bytes that they take, and the decoder after them;
`none` when it has to wait before. -/
def steps : Nat → Decoder → Option (List Event × Nat × Decoder)
  | 0, d => some ([], 0, d)
  | n + 1, d => do
    let (event, next) ← d.step
    let (events, taken, last) ← steps n next
    return (event.toList ++ events, d.width + taken, last)

/-- Draining is so many steps, and they take the bytes in front of those that wait in the end. -/
theorem drain_eq_steps (d : Decoder) :
    ∃ n taken, n ≤ taken ∧ steps n d = some (d.drain.1, taken, d.drain.2) ∧
      Takes taken d.pending d.drain.2.pending := by
  induction d using drain.induct with
  | case1 d waits =>
    rw [drain_of_none waits]
    exact ⟨0, 0, Nat.le_refl 0, rfl, Nat.zero_le _, rfl⟩
  | case2 d event next taken _ ih =>
    obtain ⟨n, more, enough, goes, inside, behind⟩ := ih
    have first := one_le_width taken
    obtain ⟨fits, rest⟩ := step_takes taken
    rw [rest, List.length_drop] at inside
    rw [rest, List.drop_drop] at behind
    rw [drain_of_some taken]
    refine ⟨n + 1, d.width + more, by omega, ?_, by omega, behind⟩
    simp [steps, taken, goes]

/-! ### What waits -/

/-- The beginning of one escape sequence or of one character, or nothing. -/
inductive Unfinished : List UInt8 → Prop where
  | nothing : Unfinished []
  | escape : Unfinished [0x1B]
  | single : Unfinished [0x1B, 0x4F]
  | bracketed {parameters : List UInt8} (inner : ∀ b ∈ parameters, 0x20 ≤ b ∧ b ≤ 0x3F) :
      Unfinished (0x1B :: 0x5B :: parameters)
  | char {lead : UInt8} {rest : List UInt8} (starts : 0xC0 ≤ lead ∧ lead ≤ 0xF7)
      (short : (lead :: rest).length < announced lead) : Unfinished (lead :: rest)

/-- What a decoder holds between two calls: in a paste, text without the closing mark. -/
def Waits (d : Decoder) : Prop :=
  if d.inPaste then ¬ pasteCloser <:+: d.pending else Unfinished d.pending

theorem splitPaste_eq_none_iff {bytes : List UInt8} :
    splitPaste bytes = none ↔ ¬ pasteCloser <:+: bytes := by
  induction bytes with
  | nil => exact iff_of_true rfl (by decide)
  | cons byte bytes ih =>
    unfold splitPaste
    split
    · next closes =>
      have inside := (List.isPrefixOf_iff_prefix.mp closes).isInfix
      exact iff_of_false (Option.some_ne_none _) (not_not_intro inside)
    · next other =>
      rw [List.isPrefixOf_iff_prefix] at other
      rw [Option.map_eq_none_iff, ih, List.infix_cons_iff, not_or]
      exact ⟨fun later => ⟨other, later⟩, fun both => both.2⟩

theorem isParameter_iff {b : UInt8} : isParameter b = true ↔ 0x20 ≤ b ∧ b ≤ 0x3F := by
  simp [isParameter]

theorem bracketed_eq_none_iff {bytes : List UInt8} :
    bracketed bytes = none ↔ ∀ b ∈ bytes, 0x20 ≤ b ∧ b ≤ 0x3F := by
  simp only [← isParameter_iff, ← List.dropWhile_eq_nil_iff]
  unfold bracketed
  cases bytes.dropWhile isParameter with
  | nil => exact iff_of_true rfl rfl
  | cons final rest => exact iff_of_false (Option.some_ne_none _) (List.cons_ne_nil _ _)

theorem longChar_eq_none_iff {lead : UInt8} {rest : List UInt8} :
    longChar lead rest = none ↔ (lead :: rest).length < announced lead := by
  have taken : ((lead :: rest).take (announced lead)).length < announced lead ↔
      (lead :: rest).length < announced lead := by
    rw [List.length_take]
    omega
  simp only [longChar, taken]
  split
  · next none =>
    rw [none]
    exact iff_of_false (Option.some_ne_none _) (Nat.not_lt_zero _)
  · split
    · next short => exact iff_of_true rfl short
    · next enough => split <;> exact iff_of_false (Option.some_ne_none _) enough

/-- A beginning of the mark before a paste is one of a sequence too. -/
theorem step_bracket_eq_none_iff {rest : List UInt8} :
    step ⟨0x1B :: 0x5B :: rest, false⟩ = none ↔ ∀ b ∈ rest, 0x20 ≤ b ∧ b ≤ 0x3F := by
  simp only [step, Bool.false_eq_true, if_false]
  split
  · next opens =>
    have tilde : 0x7E ∈ rest := by
      obtain ⟨more, parts⟩ := List.isPrefixOf_iff_prefix.mp opens
      cases parts
      simp
    exact iff_of_false (Option.some_ne_none _) fun inner => absurd (inner _ tilde) (by decide)
  · split
    · next may =>
      refine iff_of_true rfl ?_
      simp only [mayOpenPaste, Bool.and_eq_true, decide_eq_true_eq, List.isPrefixOf_iff_prefix]
        at may
      obtain ⟨⟨_, short⟩, begins⟩ := may
      have inside : rest <+: [0x32, 0x30, 0x30] ++ [0x7E] := by
        simpa [pasteOpener, List.cons_prefix_cons] using begins
      have few : rest.length ≤ 3 := by
        simp only [pasteOpener, List.length_cons, List.length_nil] at short
        omega
      have digits := List.prefix_of_prefix_length_le inside (List.prefix_append ..) few
      have inner : ∀ b ∈ [0x32, 0x30, 0x30], (0x20 : UInt8) ≤ b ∧ b ≤ 0x3F := by simp
      exact fun b mem => inner b (digits.subset mem)
    · rw [Option.map_eq_none_iff]
      exact bracketed_eq_none_iff

theorem announced_ne_zero_iff {lead : UInt8} : announced lead ≠ 0 ↔ lead ≤ 0xF7 := by
  simp only [announced, UInt8.lt_iff_toNat_lt, UInt8.le_iff_toNat_le, UInt8.reduceToNat]
  split_ifs <;> simp <;> omega

theorem step_of_escape {second : UInt8} (rest : List UInt8) (other : second ≠ 0x5B) :
    step ⟨0x1B :: second :: rest, false⟩ =
      (afterEscape (second :: rest)).map fun (event, after) => (event, ⟨after, false⟩) := by
  have opener : (0x5B == second) = false := by simpa using other.symm
  have bracket : (second == 0x5B) = false := by simpa using other
  simp [step, decode, pasteOpener, mayOpenPaste, List.isPrefixOf, opener, bracket]

theorem unfinished_of_waits {bytes : List UInt8} (waits : step ⟨bytes, false⟩ = none) :
    Unfinished bytes := by
  cases bytes with
  | nil => exact .nothing
  | cons byte rest =>
    by_cases escape : byte = 0x1B
    · subst escape
      cases rest with
      | nil => exact .escape
      | cons second rest =>
        by_cases bracket : second = 0x5B
        · subst bracket
          exact .bracketed (step_bracket_eq_none_iff.mp waits)
        · rw [step_of_escape rest bracket, Option.map_eq_none_iff, afterEscape, if_neg bracket]
            at waits
          split at waits
          · next letter =>
            subst letter
            cases rest with
            | nil => exact .single
            | cons key rest => contradiction
          · split at waits <;> contradiction
    · rw [step_of_decode rest escape, Option.map_eq_none_iff] at waits
      by_cases high : 0xC0 ≤ byte
      · rw [decode_high rest high, longChar_eq_none_iff] at waits
        exact .char ⟨high, announced_ne_zero_iff.mp (Nat.ne_zero_of_lt waits)⟩ waits
      · obtain ⟨_, short⟩ := decode_short escape high
        rw [short] at waits
        contradiction

theorem waits_of_unfinished {bytes : List UInt8} (unfinished : Unfinished bytes) :
    step ⟨bytes, false⟩ = none := by
  cases unfinished with
  | nothing => rfl
  | escape => rfl
  | single => rfl
  | bracketed inner => exact step_bracket_eq_none_iff.mpr inner
  | @char lead rest starts short =>
    have escape : lead ≠ 0x1B := by
      rintro rfl
      exact absurd starts.1 (by decide)
    rw [step_of_decode rest escape, decode_high rest starts.1, longChar_eq_none_iff.mpr short]
    rfl

/-- A decoder has to wait exactly when it holds the beginning of something. -/
theorem step_eq_none_iff {d : Decoder} : d.step = none ↔ d.Waits := by
  obtain ⟨bytes, inPaste⟩ := d
  cases inPaste with
  | true =>
    rw [Waits, if_pos rfl, ← splitPaste_eq_none_iff]
    cases bytes with
    | nil => exact iff_of_true rfl rfl
    | cons byte rest => exact Option.map_eq_none_iff
  | false =>
    rw [Waits, if_neg Bool.false_ne_true]
    exact ⟨unfinished_of_waits, waits_of_unfinished⟩

theorem feed_waits (d : Decoder) (bytes : List UInt8) : (d.feed bytes).2.Waits :=
  step_eq_none_iff.mp (step_drain _)

theorem performAll_waits {d : Decoder} (waits : d.Waits) (calls : List Call) :
    (d.performAll calls).Waits := by
  induction calls generalizing d with
  | nil => exact waits
  | cons call calls ih =>
    refine ih ?_
    cases call with
    | feed bytes => exact d.feed_waits bytes
    | flush => exact Unfinished.nothing

/-- Whatever calls have been made, feeding ends after finitely many steps, which take what is in front
of the bytes that wait then. A step takes at least one byte and none that is not there. Between
two calls only the beginning of one sequence or character waits, or a paste without its closing
mark. -/
theorem feed_progress (calls : List Call) (bytes : List UInt8) :
    let d := fresh.performAll calls
    let given : Decoder := { d with pending := d.pending ++ bytes }
    let fed := d.feed bytes
    d.Waits ∧ fed.2.Waits ∧
    (∃ n taken, n ≤ taken ∧ taken ≤ given.pending.length ∧
      steps n given = some (fed.1, taken, fed.2) ∧ fed.2.pending = given.pending.drop taken) ∧
    ∀ (mid next : Decoder) (event : Option Event), mid.step = some (event, next) →
      1 ≤ mid.width ∧ mid.width ≤ mid.pending.length ∧
        next.pending = mid.pending.drop mid.width := by
  intro d given fed
  obtain ⟨n, taken, enough, goes, inside, behind⟩ := given.drain_eq_steps
  refine ⟨performAll_waits (show fresh.Waits from .nothing) calls, d.feed_waits bytes,
    ⟨n, taken, enough, inside, goes, behind⟩, ?_⟩
  intro mid next event stepped
  exact ⟨one_le_width stepped, step_takes stepped⟩

/-- Behind half a character that was flushed, a sequence with a parameter takes all its bytes. -/
theorem delete_feed_progress :
    let given : Decoder := ⟨[0x1B, 0x5B, 0x33, 0x7E, 0x41, 0x1B], false⟩
    let fed := (fresh.performAll [.feed [0xE2, 0x82], .flush]).feed given.pending
    given.step = some (some (.press .delete), ⟨[0x41, 0x1B], false⟩) ∧ given.width = 4 ∧
      [0x41, 0x1B] = given.pending.drop given.width ∧ fed.2.Waits := by
  intro given fed
  have stepped : given.step = some (some (.press .delete), ⟨[0x41, 0x1B], false⟩) := by decide
  obtain ⟨_, waits, _, progress⟩ :=
    feed_progress [.feed [0xE2, 0x82], .flush] given.pending
  exact ⟨stepped, by decide, (progress _ _ _ stepped).2.2, waits⟩

end Decoder

end LSystem.Terminal
