import LSystem.Terminal.Decoder

/-! Bytes may arrive in any chunks. Each part of the decoder is decided by the bytes that it
takes: once it has an answer, more bytes only lengthen the rest. So the events and the bytes that
wait depend on what was fed and not on how it was cut. -/

namespace LSystem.Terminal.Decoder

/-- An answer, once given, stays when more bytes follow. -/
def Settles (decode : List UInt8 → Decoded) : Prop :=
  ∀ bytes more event rest, decode bytes = some (event, rest) →
    decode (bytes ++ more) = some (event, rest ++ more)

theorem settles_at_once (event : Option Event) (kept : List UInt8) :
    Settles fun rest => some (event, kept ++ rest) := by
  intro bytes more _ _ taken
  cases taken
  rw [List.append_assoc]

theorem Settles.ite {p : Prop} [Decidable p] {f g : List UInt8 → Decoded}
    (left : Settles f) (right : Settles g) :
    Settles fun bytes => if p then f bytes else g bytes := by
  by_cases holds : p
  · simpa only [if_pos holds] using left
  · simpa only [if_neg holds] using right

theorem Settles.behind {f : List UInt8 → Decoded} {g : UInt8 → List UInt8 → Decoded}
    (empty : f [] = none) (cons : ∀ byte rest, f (byte :: rest) = g byte rest)
    (settles : ∀ byte, Settles (g byte)) : Settles f := by
  intro bytes more event rest taken
  cases bytes with
  | nil =>
    rw [empty] at taken
    contradiction
  | cons byte bytes =>
    rw [cons] at taken
    rw [List.cons_append, cons]
    exact settles byte bytes more event rest taken

theorem bracketed_settles : Settles bracketed := by
  intro bytes more event rest taken
  unfold bracketed at taken
  split at taken
  · contradiction
  · next final after found =>
    have ends : (bytes.dropWhile isParameter).isEmpty = false := by simp [found]
    have parts := congrArg List.length (bytes.takeWhile_append_dropWhile (p := isParameter))
    have short : (bytes.takeWhile isParameter).length ≠ bytes.length := by
      rw [List.length_append, found, List.length_cons] at parts
      omega
    have drop : (bytes ++ more).dropWhile isParameter = final :: (after ++ more) := by
      rw [List.dropWhile_append, ends, found]
      rfl
    have take : (bytes ++ more).takeWhile isParameter = bytes.takeWhile isParameter := by
      rw [List.takeWhile_append, if_neg short]
    cases taken
    simp only [bracketed, drop, take]

theorem single_settles : Settles single :=
  .behind rfl (fun _ _ => rfl) fun byte => settles_at_once ((letterKey? byte).map .press) []

theorem afterEscape_settles : Settles afterEscape :=
  .behind rfl (fun _ _ => rfl) fun byte =>
    .ite bracketed_settles <| .ite single_settles <|
      .ite (settles_at_once _ []) (settles_at_once _ [byte])

theorem longChar_settles (lead : UInt8) : Settles (longChar lead) := by
  intro bytes more event rest taken
  simp only [longChar, ← List.cons_append] at taken ⊢
  split at taken
  · next none =>
    cases taken
    exact if_pos none
  · next some =>
    split at taken
    · contradiction
    · next enough =>
      have whole : announced lead ≤ (lead :: bytes).length := by
        simp only [List.length_take] at enough
        omega
      have behind : announced lead - 1 ≤ bytes.length := by
        simp only [List.length_cons] at whole
        omega
      rw [if_neg some, List.take_append_of_le_length whole, if_neg enough,
        List.drop_append_of_le_length behind]
      split at taken
      · cases taken
        rfl
      · cases taken
        rfl

theorem decode_settles (byte : UInt8) : Settles (decode byte) :=
  .ite afterEscape_settles <| .ite (settles_at_once _ []) <| .ite (settles_at_once _ []) <|
    .ite (settles_at_once _ []) <| .ite (settles_at_once _ []) <| .ite (settles_at_once _ []) <|
      .ite (longChar_settles byte) (settles_at_once _ [])

theorem length_of_splitPaste {bytes text after : List UInt8}
    (found : splitPaste bytes = some (text, after)) : pasteCloser.length ≤ bytes.length := by
  induction bytes generalizing text after with
  | nil => contradiction
  | cons byte bytes ih =>
    unfold splitPaste at found
    split at found
    · next closes => exact (List.isPrefixOf_iff_prefix.mp closes).length_le
    · obtain ⟨⟨inner, rest⟩, split, _⟩ := Option.map_eq_some_iff.mp found
      exact Nat.le_succ_of_le (ih split)

theorem isPrefixOf_append {mark bytes more : List UInt8} (enough : mark.length ≤ bytes.length) :
    mark.isPrefixOf (bytes ++ more) = mark.isPrefixOf bytes := by
  rw [Bool.eq_iff_iff, List.isPrefixOf_iff_prefix, List.isPrefixOf_iff_prefix]
  constructor
  · exact fun longer => List.prefix_of_prefix_length_le longer (List.prefix_append ..) enough
  · exact fun shorter => shorter.trans (List.prefix_append ..)

theorem splitPaste_append {bytes text after : List UInt8} (more : List UInt8)
    (found : splitPaste bytes = some (text, after)) :
    splitPaste (bytes ++ more) = some (text, after ++ more) := by
  induction bytes generalizing text with
  | nil => contradiction
  | cons byte bytes ih =>
    have enough := length_of_splitPaste found
    unfold splitPaste at found
    rw [List.cons_append, splitPaste, ← List.cons_append, isPrefixOf_append enough]
    split at found
    · next closes =>
      rw [if_pos closes, List.drop_append_of_le_length enough]
      cases found
      rfl
    · next open_ =>
      obtain ⟨⟨inner, rest⟩, split, same⟩ := Option.map_eq_some_iff.mp found
      cases same
      rw [if_neg open_, ih split]
      rfl

/-- Bytes that are decoded are no beginning of the mark before a paste: a lone escape byte waits,
and from its second byte on the mark is recognised. -/
theorem not_prefix_opener {byte : UInt8} {rest : List UInt8} (decodes : decode byte rest ≠ none)
    (other : ¬ pasteOpener.isPrefixOf (byte :: rest)) (apart : ¬ mayOpenPaste (byte :: rest)) :
    ¬ (byte :: rest) <+: pasteOpener := by
  intro begins
  have bound := begins.length_le
  cases rest with
  | nil =>
    have escape : byte = 0x1B := (List.cons_prefix_cons.mp begins).1
    subst escape
    exact decodes rfl
  | cons second rest =>
    by_cases whole : pasteOpener.length ≤ (byte :: second :: rest).length
    · have same := begins.eq_of_length (Nat.le_antisymm bound whole)
      rw [same] at other
      exact other (List.isPrefixOf_iff_prefix.mpr (List.prefix_refl _))
    · have long : 2 ≤ (byte :: second :: rest).length := by
        simp only [List.length_cons]
        omega
      apply apart
      simp only [mayOpenPaste, Bool.and_eq_true, decide_eq_true_eq, List.isPrefixOf_iff_prefix]
      exact ⟨⟨long, Nat.lt_of_not_le whole⟩, begins⟩

theorem not_opener_append {byte : UInt8} {rest : List UInt8} (more : List UInt8)
    (decodes : decode byte rest ≠ none) (other : ¬ pasteOpener.isPrefixOf (byte :: rest))
    (apart : ¬ mayOpenPaste (byte :: rest)) :
    ¬ pasteOpener.isPrefixOf (byte :: rest ++ more) ∧ ¬ mayOpenPaste (byte :: rest ++ more) := by
  have never := not_prefix_opener decodes other apart
  rw [List.isPrefixOf_iff_prefix] at other ⊢
  have longer : (byte :: rest) <+: byte :: rest ++ more := List.prefix_append ..
  constructor
  · intro opens
    rcases List.prefix_or_prefix_of_prefix opens longer with inside | beyond
    · exact other inside
    · exact never beyond
  · intro may
    simp only [mayOpenPaste, Bool.and_eq_true, List.isPrefixOf_iff_prefix] at may
    exact never (longer.trans may.2)

/-- What a step does it does with more bytes too. -/
theorem step_append {pending : List UInt8} {inPaste : Bool} {event : Option Event}
    {next : Decoder} (more : List UInt8) (taken : step ⟨pending, inPaste⟩ = some (event, next)) :
    step ⟨pending ++ more, inPaste⟩ =
      some (event, { next with pending := next.pending ++ more }) := by
  cases pending with
  | nil => contradiction
  | cons byte rest =>
    simp only [step, List.cons_append] at taken ⊢
    simp only [← List.cons_append]
    cases inPaste with
    | true =>
      obtain ⟨⟨text, after⟩, found, same⟩ := Option.map_eq_some_iff.mp taken
      cases same
      simp only [if_true, splitPaste_append more found, Option.map_some]
    | false =>
      simp only [Bool.false_eq_true, if_false] at taken ⊢
      split at taken
      · next opens =>
        have enough := (List.isPrefixOf_iff_prefix.mp opens).length_le
        cases taken
        rw [isPrefixOf_append enough, if_pos opens, List.drop_append_of_le_length enough]
      · next other =>
        split at taken
        · contradiction
        · next apart =>
          obtain ⟨⟨event, after⟩, decoded, same⟩ := Option.map_eq_some_iff.mp taken
          cases same
          have still := not_opener_append more (decoded ▸ nofun) other apart
          rw [if_neg still.1, if_neg still.2, decode_settles byte rest more event after decoded]
          rfl

theorem drain_of_none {d : Decoder} (waits : d.step = none) : d.drain = ([], d) := by
  rw [drain]
  split
  · rfl
  · next taken =>
    rw [waits] at taken
    contradiction

theorem drain_of_some {d next : Decoder} {event : Option Event}
    (taken : d.step = some (event, next)) :
    d.drain = (event.toList ++ next.drain.1, next.drain.2) := by
  rw [drain]
  split
  · next waits =>
    rw [taken] at waits
    contradiction
  · next other =>
    rw [taken] at other
    cases other
    rfl

theorem step_drain (d : Decoder) : d.drain.2.step = none := by
  fun_induction drain d with
  | case1 d waits => exact waits
  | case2 d event next taken _ ih => exact ih

/-- Draining all bytes is draining the first of them, then what waits and the others. -/
theorem drain_append (d : Decoder) (more : List UInt8) :
    drain { d with pending := d.pending ++ more } =
      (d.drain.1 ++ (d.drain.2.feed more).1, (d.drain.2.feed more).2) := by
  fun_induction drain d with
  | case1 d waits => rfl
  | case2 d event next taken _ ih =>
    rw [drain_of_some (step_append more taken), ih, List.append_assoc]

/-- Takes chunks one after another. Gives all their events. -/
def feedAll (d : Decoder) : List (List UInt8) → List Event × Decoder
  | [] => ([], d)
  | chunk :: chunks =>
    let (events, d) := d.feed chunk
    let (more, d) := d.feedAll chunks
    (events ++ more, d)

/-- The states that bytes lead to. Flushing leads to the fresh one. -/
inductive Reachable : Decoder → Prop where
  | fresh : Reachable .fresh
  | feed {d : Decoder} (bytes : List UInt8) : Reachable d → Reachable (d.feed bytes).2

theorem Reachable.waits {d : Decoder} (reachable : d.Reachable) : d.step = none := by
  cases reachable with
  | fresh => rfl
  | feed bytes _ => exact step_drain _

theorem feed_append (d : Decoder) (bytes more : List UInt8) :
    d.feed (bytes ++ more) =
      ((d.feed bytes).1 ++ ((d.feed bytes).2.feed more).1, ((d.feed bytes).2.feed more).2) := by
  have parts := drain_append { d with pending := d.pending ++ bytes } more
  rw [List.append_assoc] at parts
  exact parts

/-- Chunks give the events of all their bytes at once, in order, and leave the same bytes
waiting in the same mode. -/
theorem feedAll_eq_feed (d : Decoder) (reachable : d.Reachable) (chunks : List (List UInt8)) :
    d.feedAll chunks = d.feed chunks.flatten := by
  induction chunks generalizing d with
  | nil =>
    have idle : d.feed [] = d.drain := by rw [feed, List.append_nil]
    rw [List.flatten_nil, idle, drain_of_none reachable.waits]
    rfl
  | cons chunk chunks ih =>
    rw [List.flatten_cons, feed_append, ← ih _ (reachable.feed chunk)]
    rfl

/-- A paste in pieces, behind an escape byte that waits for it: both of its marks and a character
of two bytes are cut. -/
theorem feedAll_paste_in_pieces :
    (fresh.feed [0x1B]).2.Reachable ∧
      (fresh.feed [0x1B]).2.feedAll
          [[0x5B, 0x32], [], [0x30, 0x30, 0x7E, 0xC5], [0x9B, 0x1B, 0x5B],
            [0x32, 0x30, 0x31, 0x7E]] =
        (fresh.feed [0x1B]).2.feed
          [0x5B, 0x32, 0x30, 0x30, 0x7E, 0xC5, 0x9B, 0x1B, 0x5B, 0x32, 0x30, 0x31, 0x7E] :=
  ⟨.feed _ .fresh, feedAll_eq_feed _ (.feed _ .fresh) _⟩

end LSystem.Terminal.Decoder
