import LSystem.Proofs.Terminal.ControlC
import LSystem.Proofs.Terminal.Progress

/-! Flushing behind half a character. Up to two bytes can wait behind a lead byte that announces more
than comes. A decoder that drops a broken lead byte decodes what is behind it anew; flushing takes
each byte for itself instead. The two agree but for Backspace, Tab and Enter, for Alt with a
character, and for a whole character of two bytes. -/

namespace LSystem.Terminal.Decoder

open Text

/-- What the bytes come to when no more follow: they are decoded as far as they go, and the others are
flushed. -/
def resolved (bytes : List UInt8) : List Event :=
  (fresh.feed bytes).1 ++ (fresh.feed bytes).2.flush

/-- The bytes of Backspace, Tab and Enter that flushing takes for letters typed with Ctrl. -/
def namedBytes : List UInt8 := [0x08, 0x09, 0x0A, 0x0D]

/-- The bytes behind a lead byte that flushing takes for other keys than they are. -/
inductive Misread : List UInt8 → Prop where
  | named {byte : UInt8} {rest : List UInt8} (named : byte ∈ namedBytes) : Misread (byte :: rest)
  /-- Unless the byte in front of it waits for two more itself. -/
  | namedBehind {first byte : UInt8} (named : byte ∈ namedBytes)
      (decoded : ¬ (0xE0 ≤ first ∧ first ≤ 0xF7)) : Misread [first, byte]
  | alt {byte : UInt8} (printable : isPrintable byte = true)
      (plain : byte ≠ 0x5B ∧ byte ≠ 0x4F) : Misread [0x1B, byte]
  | char {first byte : UInt8} {c : Char} (read : Utf8.single? [first, byte] = some c) :
      Misread [first, byte]

theorem feed_fresh (bytes : List UInt8) : fresh.feed bytes = drain ⟨bytes, false⟩ := rfl

theorem feed_fresh_of_waits {bytes : List UInt8} (waits : step ⟨bytes, false⟩ = none) :
    fresh.feed bytes = ([], ⟨bytes, false⟩) := drain_of_none waits

theorem resolved_of_waits {bytes : List UInt8} (waits : step ⟨bytes, false⟩ = none) :
    resolved bytes = bytes.filterMap alone := by
  rw [resolved, feed_fresh_of_waits waits]
  rfl

theorem resolved_nil : resolved [] = [] := resolved_of_waits rfl

theorem resolved_of_step {bytes rest : List UInt8} {event : Option Event}
    (taken : step ⟨bytes, false⟩ = some (event, ⟨rest, false⟩)) :
    resolved bytes = event.toList ++ resolved rest := by
  rw [resolved, feed_fresh, drain_of_some taken, List.append_assoc]
  rfl

theorem resolved_of_decode {byte : UInt8} {bytes rest : List UInt8} {event : Option Event}
    (escape : byte ≠ 0x1B) (decoded : decode byte bytes = some (event, rest)) :
    resolved (byte :: bytes) = event.toList ++ resolved rest := by
  refine resolved_of_step ?_
  rw [step_of_decode bytes escape, decoded]
  rfl

theorem filterMap_alone_cons (byte : UInt8) (rest : List UInt8) :
    (byte :: rest).filterMap alone = (alone byte).toList ++ rest.filterMap alone := by
  cases found : alone byte with
  | none => exact List.filterMap_cons_none found
  | some e => exact List.filterMap_cons_some found

/-- Taking each byte for itself gives the keys that the bytes are. -/
def Literal (bytes : List UInt8) : Prop := bytes.filterMap alone = resolved bytes

theorem literal_of_waits {bytes : List UInt8} (waits : step ⟨bytes, false⟩ = none) :
    Literal bytes :=
  (resolved_of_waits waits).symm

theorem literal_cons_iff {byte : UInt8} {rest : List UInt8}
    (first : resolved (byte :: rest) = (alone byte).toList ++ resolved rest) :
    Literal (byte :: rest) ↔ Literal rest := by
  rw [Literal, Literal, first, filterMap_alone_cons, List.append_cancel_left_eq]

/-! ### One byte -/

theorem alone_high (byte : UInt8) : 0x80 ≤ byte → alone byte = none := by
  revert byte
  exact byte_induction (by decide +kernel)

theorem alone_eq_decode_iff (byte : UInt8) : byte ≠ 0x1B → ¬ 0xC0 ≤ byte →
    ((decode byte []).bind Prod.fst = alone byte ↔ byte ∉ namedBytes) := by
  revert byte
  exact byte_induction (by decide +kernel)

theorem isSome_of_named (byte : UInt8) : byte ∈ namedBytes →
    (alone byte).isSome ∧ ((decode byte []).bind Prod.fst).isSome := by
  revert byte
  exact byte_induction (by decide +kernel)

theorem short_of_named (byte : UInt8) : byte ∈ namedBytes → byte ≠ 0x1B ∧ ¬ 0xC0 ≤ byte := by
  revert byte
  exact byte_induction (by decide +kernel)

theorem lead_alone (byte : UInt8) : 0xC0 ≤ byte →
    step ⟨[byte], false⟩ = none ∨ step ⟨[byte], false⟩ = some (none, fresh) := by
  revert byte
  exact byte_induction (by decide +kernel)

theorem resolved_short {byte : UInt8} (escape : byte ≠ 0x1B) (low : ¬ 0xC0 ≤ byte) :
    ∃ event, (event = alone byte ↔ byte ∉ namedBytes) ∧
      (byte ∈ namedBytes → event.isSome) ∧
      ∀ rest, resolved (byte :: rest) = event.toList ++ resolved rest := by
  obtain ⟨event, short⟩ := decode_short escape low
  have table := alone_eq_decode_iff byte escape low
  have some := isSome_of_named byte
  rw [short []] at table some
  exact ⟨event, table, fun named => (some named).2,
    fun rest => resolved_of_decode escape (short rest)⟩

theorem not_literal_of_named {byte : UInt8} (named : byte ∈ namedBytes) (rest : List UInt8) :
    ¬ Literal (byte :: rest) := by
  obtain ⟨escape, low⟩ := short_of_named byte named
  obtain ⟨event, table, some, resolves⟩ := resolved_short escape low
  obtain ⟨key, pressed⟩ := Option.isSome_iff_exists.mp (some named)
  obtain ⟨letter, taken⟩ := Option.isSome_iff_exists.mp (isSome_of_named byte named).1
  subst pressed
  intro same
  rw [Literal, resolves, filterMap_alone_cons, taken] at same
  have heads : letter = key := (List.cons.inj same).1
  exact absurd named (table.mp (by rw [taken, heads]))

theorem literal_short_iff {byte : UInt8} (escape : byte ≠ 0x1B) (low : ¬ 0xC0 ≤ byte)
    (plain : byte ∉ namedBytes) (rest : List UInt8) : Literal (byte :: rest) ↔ Literal rest := by
  obtain ⟨event, table, _, resolves⟩ := resolved_short escape low
  exact literal_cons_iff (table.mpr plain ▸ resolves rest)

theorem literal_nil : Literal [] := resolved_nil.symm

theorem literal_singleton_iff {byte : UInt8} : Literal [byte] ↔ byte ∉ namedBytes := by
  by_cases named : byte ∈ namedBytes
  · exact iff_of_false (not_literal_of_named named []) (not_not_intro named)
  · refine iff_of_true ?_ named
    by_cases escape : byte = 0x1B
    · subst escape
      exact literal_of_waits (waits_of_unfinished .escape)
    · by_cases high : 0xC0 ≤ byte
      · obtain waits | dropped := lead_alone byte high
        · exact literal_of_waits waits
        · have nothing := alone_high byte (Nat.le_trans (by decide) high)
          rw [literal_cons_iff (nothing ▸ resolved_of_step dropped)]
          exact literal_nil
      · rw [literal_short_iff escape high named]
        exact literal_nil

/-! ### Two bytes -/

theorem announced_of_few (lead : UInt8) : ¬ (0xE0 ≤ lead ∧ lead ≤ 0xF7) →
    announced lead = 2 ∨ announced lead = 0 := by
  revert lead
  exact byte_induction (by decide +kernel)

theorem two_lt_announced (lead : UInt8) : 0xE0 ≤ lead ∧ lead ≤ 0xF7 → 2 < announced lead := by
  revert lead
  exact byte_induction (by decide +kernel)

theorem announced_le_four (lead : UInt8) : announced lead ≤ 4 := by
  revert lead
  exact byte_induction (by decide +kernel)

theorem single_pair {first second : UInt8} {c : Char}
    (read : Utf8.single? [first, second] = some c) :
    announced first = 2 ∧ 0xC0 ≤ first ∧ 0x80 ≤ second := by
  have behind : 0x80 ≤ second := Utf8.high_of_single read second (List.mem_singleton.mpr rfl)
  simp only [Utf8.single?] at read
  split at read
  · next found =>
    obtain ⟨lead, leads, length⟩ := Utf8.lead_of_first found
    have more : lead.more = 1 := length.symm
    have above : 0x80 ≤ first.toNat := by
      by_contra low
      simp only [Utf8.lead?, if_pos (Nat.lt_of_not_le low)] at leads
      cases leads
      contradiction
    obtain ⟨starts, count⟩ := announced_of_lead leads above
    exact ⟨by rw [count, more], starts, behind⟩
  · contradiction

theorem misread_pair_iff {first second : UInt8} (plain : first ∉ namedBytes) :
    Misread [first, second] ↔ second ∈ namedBytes ∧ ¬ (0xE0 ≤ first ∧ first ≤ 0xF7) ∨
      (first = 0x1B ∧ isPrintable second = true ∧ second ≠ 0x5B ∧ second ≠ 0x4F) ∨
      (Utf8.single? [first, second]).isSome := by
  constructor
  · intro misread
    cases misread with
    | named named => exact absurd named plain
    | namedBehind named decoded => exact .inl ⟨named, decoded⟩
    | alt printable other => exact .inr (.inl ⟨rfl, printable, other⟩)
    | char read => exact .inr (.inr (Option.isSome_of_eq_some read))
  · rintro (⟨named, decoded⟩ | ⟨rfl, printable, other⟩ | read)
    · exact .namedBehind named decoded
    · exact .alt printable other
    · obtain ⟨c, read⟩ := Option.isSome_iff_exists.mp read
      exact .char read

theorem single_pair_of_low {first : UInt8} (low : ¬ 0xC0 ≤ first) (second : UInt8) :
    (Utf8.single? [first, second]).isSome = false := by
  rw [Option.isSome_eq_false_iff, Option.isNone_iff_eq_none, Option.eq_none_iff_forall_ne_some]
  exact fun c read => low (single_pair read).2.1

theorem literal_behind_escape_iff {second : UInt8} : Literal [0x1B, second] ↔
    second ∉ namedBytes ∧ ¬ (isPrintable second = true ∧ second ≠ 0x5B ∧ second ≠ 0x4F) := by
  by_cases bracket : second = 0x5B
  · subst bracket
    have waits : Unfinished [0x1B, 0x5B] := .bracketed fun b mem => absurd mem List.not_mem_nil
    exact iff_of_true (literal_of_waits (waits_of_unfinished waits)) (by decide)
  · by_cases letter : second = 0x4F
    · subst letter
      exact iff_of_true (literal_of_waits (waits_of_unfinished .single)) (by decide)
    · have taken := step_of_escape [] bracket
      rw [afterEscape, if_neg bracket, if_neg letter] at taken
      by_cases printable : isPrintable second = true
      · rw [if_pos printable] at taken
        refine iff_of_false ?_ fun right => right.2 ⟨printable, bracket, letter⟩
        intro same
        rw [Literal, resolved_of_step taken] at same
        cases (List.cons.inj same).1
      · rw [if_neg printable] at taken
        rw [literal_cons_iff (resolved_of_step taken), literal_singleton_iff]
        exact ⟨fun plain => ⟨plain, fun alt => printable alt.1⟩, And.left⟩

theorem longChar_pair {first second : UInt8} (few : ¬ (0xE0 ≤ first ∧ first ≤ 0xF7)) :
    longChar first [second] = match Utf8.single? [first, second] with
      | some c => some (some (.press (.char c)), [])
      | none => some (none, [second]) := by
  by_cases two : announced first = 2
  · cases read : Utf8.single? [first, second] <;> simp [longChar, two, read]
  · have unknown : announced first = 0 := (announced_of_few first few).resolve_left two
    have broken : Utf8.single? [first, second] = none := by
      rw [Option.eq_none_iff_forall_ne_some]
      exact fun c read => two (single_pair read).1
    simp [longChar, unknown, broken]

theorem literal_behind_lead_iff {first second : UInt8} (high : 0xC0 ≤ first) :
    Literal [first, second] ↔
      ¬ (second ∈ namedBytes ∧ ¬ (0xE0 ≤ first ∧ first ≤ 0xF7) ∨
        (Utf8.single? [first, second]).isSome) := by
  have escape : first ≠ 0x1B := by
    rintro rfl
    exact absurd high (by decide)
  have nothing := alone_high first (Nat.le_trans (by decide) high)
  by_cases more : 0xE0 ≤ first ∧ first ≤ 0xF7
  · have long := two_lt_announced first more
    refine iff_of_true (literal_of_waits (waits_of_unfinished (.char ⟨high, more.2⟩ long))) ?_
    rintro (⟨_, few⟩ | whole)
    · exact few more
    · obtain ⟨c, read⟩ := Option.isSome_iff_exists.mp whole
      have two := (single_pair read).1
      omega
  · have decoded := decode_high [second] high
    rw [longChar_pair more] at decoded
    cases read : Utf8.single? [first, second] with
    | some c =>
      rw [read] at decoded
      refine iff_of_false ?_ (not_not_intro (.inr rfl))
      intro same
      have silent := alone_high second (single_pair read).2.2
      rw [Literal, resolved_of_decode escape decoded, filterMap_alone_cons, filterMap_alone_cons,
        nothing, silent] at same
      contradiction
    | none =>
      rw [read] at decoded
      rw [literal_cons_iff (nothing ▸ resolved_of_decode escape decoded), literal_singleton_iff]
      simp [more]

theorem literal_pair_iff {first second : UInt8} :
    Literal [first, second] ↔ ¬ Misread [first, second] := by
  by_cases named : first ∈ namedBytes
  · exact iff_of_false (not_literal_of_named named _) (not_not_intro (.named named))
  · rw [misread_pair_iff named]
    by_cases escape : first = 0x1B
    · subst escape
      have few : ¬ ((0xE0 : UInt8) ≤ 0x1B ∧ (0x1B : UInt8) ≤ 0xF7) := by decide
      rw [literal_behind_escape_iff, single_pair_of_low (by decide)]
      simp only [few, not_false_eq_true, and_true, true_and, Bool.false_eq_true, or_false, not_or]
    · by_cases high : 0xC0 ≤ first
      · rw [literal_behind_lead_iff high]
        simp [escape]
      · have few : ¬ (0xE0 ≤ first ∧ first ≤ 0xF7) := fun more => high (Nat.le_trans (by decide) more.1)
        rw [literal_short_iff escape high named, literal_singleton_iff, single_pair_of_low high]
        simp [escape, few]

theorem misread_singleton_iff {byte : UInt8} : Misread [byte] ↔ byte ∈ namedBytes := by
  refine ⟨?_, .named⟩
  intro misread
  cases misread with
  | named named => exact named

theorem literal_iff {bytes : List UInt8} (few : bytes.length ≤ 2) :
    Literal bytes ↔ ¬ Misread bytes := by
  rcases bytes with _ | ⟨first, _ | ⟨second, _ | ⟨third, more⟩⟩⟩
  · refine iff_of_true literal_nil ?_
    intro misread
    cases misread
  · rw [literal_singleton_iff, misread_singleton_iff]
  · exact literal_pair_iff
  · simp only [List.length_cons] at few
    omega

/-- What waits behind a lead byte is at most two bytes. -/
theorem length_behind_lead_le {d : Decoder} (reachable : d.Reachable) (outside : d.inPaste = false)
    {lead : UInt8} {rest : List UInt8} (pending : d.pending = lead :: rest) (starts : 0xC0 ≤ lead) :
    rest.length ≤ 2 := by
  have waits : d.Waits := step_eq_none_iff.mp reachable.waits
  rw [Waits, outside, if_neg Bool.false_ne_true, pending] at waits
  cases waits with
  | escape => exact absurd starts (by decide)
  | single => exact absurd starts (by decide)
  | bracketed => exact absurd starts (by decide)
  | char _ short =>
    have most := announced_le_four lead
    rw [List.length_cons] at short
    omega

/-- Flushing gives nothing for a lead byte that waits, and takes each byte behind it for itself. Those
are the keys that the bytes are for a decoder that has dropped the lead byte, unless one is Backspace,
Tab or Enter, or they are Alt with a character or one character. -/
theorem flush_behind_lead_iff (d : Decoder) (reachable : d.Reachable) (outside : d.inPaste = false)
    (lead : UInt8) (rest : List UInt8) (pending : d.pending = lead :: rest) (starts : 0xC0 ≤ lead) :
    d.flush = rest.filterMap alone ∧ rest.length ≤ 2 ∧
      (d.flush = resolved rest ↔ ¬ Misread rest) := by
  have nothing := alone_high lead (Nat.le_trans (by decide) starts)
  have flushed : d.flush = rest.filterMap alone := by
    rw [flush, outside, if_neg Bool.false_ne_true, pending, filterMap_alone_cons, nothing]
    rfl
  have few := length_behind_lead_le reachable outside pending starts
  refine ⟨flushed, few, ?_⟩
  rw [flushed]
  exact literal_iff few

/-- Behind the first byte of a character of three, Enter is flushed as the letter `m` typed with
Ctrl. -/
theorem enter_misread_behind_lead :
    ¬ ∀ (d : Decoder) (lead : UInt8) (rest : List UInt8), d.Reachable → d.inPaste = false →
      d.pending = lead :: rest → 0xC0 ≤ lead → d.flush = resolved rest := by
  intro agrees
  have fed : (fresh.feed [0xE0, 0x0D]).2 = ⟨[0xE0, 0x0D], false⟩ := by
    rw [feed_fresh_of_waits (by decide)]
  have same := agrees ⟨[0xE0, 0x0D], false⟩ 0xE0 [0x0D] (fed ▸ .feed _ .fresh) rfl rfl (by decide)
  have enter : resolved [0x0D] = [.press .enter] := by
    rw [resolved_of_decode (by decide) rfl, resolved_nil]
    rfl
  rw [enter] at same
  exact absurd same (by decide)

/-- Behind the first byte of a character of four, Escape and a control key are flushed as they
are. -/
theorem escape_flush_behind_lead :
    (fresh.feed [0xF0, 0x1B, 0x03]).2.flush = [.press .escape, .key (.char 'c') { ctrl := true }] ∧
      (fresh.feed [0xF0, 0x1B, 0x03]).2.flush = resolved [0x1B, 0x03] := by
  have fed : (fresh.feed [0xF0, 0x1B, 0x03]).2 = ⟨[0xF0, 0x1B, 0x03], false⟩ := by
    rw [feed_fresh_of_waits (by decide)]
  obtain ⟨flushed, _, right⟩ := flush_behind_lead_iff (fresh.feed [0xF0, 0x1B, 0x03]).2
    (.feed _ .fresh) (by rw [fed]) 0xF0 [0x1B, 0x03] (by rw [fed]) (by decide)
  refine ⟨flushed.trans (by decide), right.mpr ?_⟩
  rw [misread_pair_iff (by decide)]
  decide

end LSystem.Terminal.Decoder
