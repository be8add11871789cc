import LSystem.Proofs.EventLoop
import LSystem.Proofs.Text.Utf8

/-! What becomes of a Ctrl-C byte. Behind garbage, half a character or a lone escape byte it is
still heard, and the viewer quits. Only where it cuts an escape sequence short it is taken for
the end of that sequence and dropped with it. -/

namespace LSystem.Terminal

open Text

theorem Event.isCtrl_press (k : Key) (c : Char) : (Event.press k).isCtrl c = false := by
  cases k with
  | char => exact Bool.and_false _
  | _ => rfl

namespace Decoder

def ctrlC : UInt8 := 0x03

def heard (event : Option Event) : Nat := event.toList.countP (·.isCtrl 'c')

theorem heard_of_other {event : Option Event} (other : ∀ e ∈ event, e.isCtrl 'c' = false) :
    heard event = 0 := by
  cases event with
  | none => rfl
  | some e => exact List.countP_eq_zero.mpr (by simpa using other e rfl)

theorem heard_press (k : Key) : heard (some (.press k)) = 0 :=
  heard_of_other (by simp [Event.isCtrl_press])

/-- Whether a Ctrl-C byte ends the sequence that goes on with `bytes` behind an escape byte. -/
def cutBehindEscape : List UInt8 → Bool
  | [] => false
  | byte :: rest =>
    if byte = 0x5B then (rest.dropWhile isParameter).head? == some ctrlC
    else if byte = 0x4F then rest.head? == some ctrlC
    else false

/-- Whether the next bytes are an escape sequence that a Ctrl-C byte cuts short. -/
def cutsShort : List UInt8 → Bool
  | [] => false
  | byte :: rest => byte == 0x1B && cutBehindEscape rest

/-- Of `bytes` all but `rest` have been taken, with one Ctrl-C byte for each that is heard, and
one more if one is lost. -/
def Accounts (bytes : List UInt8) (event : Option Event) (lost : Bool) (rest : List UInt8) : Prop :=
  ∃ taken, bytes = taken ++ rest ∧ taken.count ctrlC = heard event + lost.toNat

section

variable {byte : UInt8} {bytes rest : List UInt8} {event : Option Event} {lost : Bool}

theorem Accounts.behind {front : List UInt8} (other : ∀ b ∈ front, b ≠ ctrlC)
    (accounts : Accounts bytes event lost rest) : Accounts (front ++ bytes) event lost rest := by
  obtain ⟨taken, rfl, count⟩ := accounts
  have none : front.count ctrlC = 0 := List.count_eq_zero.mpr fun mem => other _ mem rfl
  refine ⟨front ++ taken, (List.append_assoc ..).symm, ?_⟩
  rw [List.count_append, none, count, Nat.zero_add]

theorem Accounts.cons (other : byte ≠ ctrlC) (accounts : Accounts bytes event lost rest) :
    Accounts (byte :: bytes) event lost rest := by
  have front : ∀ b ∈ [byte], b ≠ ctrlC := by simpa using other
  exact accounts.behind front

theorem accounts_nothing (rest : List UInt8) (quiet : heard event = 0) :
    Accounts rest event false rest :=
  ⟨[], rfl, by rw [quiet]; rfl⟩

theorem accounts_lost (byte : UInt8) (rest : List UInt8) (quiet : heard event = 0) :
    Accounts (byte :: rest) event (byte == ctrlC) rest := by
  refine ⟨[byte], rfl, ?_⟩
  rw [quiet, List.count_singleton]
  cases byte == ctrlC <;> rfl

theorem heard_named {key : Option Key} (m : Modifiers)
    (named : ∀ k ∈ key, (Event.key k m).isCtrl 'c' = false) : heard (key.map (.key · m)) = 0 := by
  refine heard_of_other fun e mem => ?_
  obtain ⟨k, found, rfl⟩ := Option.map_eq_some_iff.mp mem
  exact named k found

theorem heard_letterKey? (final : UInt8) (m : Modifiers) :
    heard ((letterKey? final).map (.key · m)) = 0 := by
  refine heard_named m ?_
  unfold letterKey?
  split <;> simp [Event.isCtrl]

theorem heard_numberKey? (number : Nat) (m : Modifiers) :
    heard ((numberKey? number).map (.key · m)) = 0 := by
  refine heard_named m ?_
  unfold numberKey?
  split <;> simp [Event.isCtrl]

theorem heard_sequence? (bytes : List UInt8) (final : UInt8) :
    heard (sequence? bytes final) = 0 := by
  simp only [sequence?]
  split
  · exact heard_numberKey? ..
  · split
    · rfl
    · exact heard_letterKey? ..

theorem bracketed_accounts (taken : bracketed bytes = some (event, rest)) :
    Accounts bytes event ((bytes.dropWhile isParameter).head? == some ctrlC) rest := by
  unfold bracketed at taken
  split at taken
  · contradiction
  · next final after found =>
    cases taken
    have quiet : heard (if isFinal final then sequence? (bytes.takeWhile isParameter) final
        else none) = 0 := by
      split
      · exact heard_sequence? ..
      · rfl
    have parameters : ∀ b ∈ bytes.takeWhile isParameter, b ≠ ctrlC := by
      rintro b mem rfl
      have parameter := List.all_eq_true.mp List.all_takeWhile _ mem
      contradiction
    have ends := (accounts_lost final rest quiet).behind parameters
    rw [← found, List.takeWhile_append_dropWhile] at ends
    rw [found]
    exact ends

theorem single_accounts (taken : single bytes = some (event, rest)) :
    Accounts bytes event (bytes.head? == some ctrlC) rest := by
  cases bytes with
  | nil => contradiction
  | cons byte bytes =>
    cases taken
    exact accounts_lost byte rest (heard_letterKey? byte {})

theorem not_ctrlC_of_isPrintable (printable : isPrintable byte = true) : byte ≠ ctrlC := by
  rintro rfl
  contradiction

theorem afterEscape_accounts (taken : afterEscape bytes = some (event, rest)) :
    Accounts bytes event (cutBehindEscape bytes) rest := by
  cases bytes with
  | nil => contradiction
  | cons byte bytes =>
    simp only [afterEscape] at taken
    simp only [cutBehindEscape]
    split at taken
    · next bracket =>
      rw [if_pos bracket]
      exact (bracketed_accounts taken).cons (bracket ▸ by decide)
    · next other =>
      rw [if_neg other]
      split at taken
      · next letter =>
        rw [if_pos letter]
        exact (single_accounts taken).cons (letter ▸ by decide)
      · next other =>
        rw [if_neg other]
        split at taken
        · next printable =>
          cases taken
          have quiet : heard (some (.key (.char (ascii byte)) { alt := true })) = 0 :=
            heard_of_other (by simp [Event.isCtrl])
          exact (accounts_nothing _ quiet).cons (not_ctrlC_of_isPrintable printable)
        · cases taken
          exact accounts_nothing _ (heard_press _)

theorem longChar_accounts {lead : UInt8} (taken : longChar lead bytes = some (event, rest)) :
    Accounts bytes event false rest := by
  simp only [longChar] at taken
  split at taken
  · cases taken
    exact accounts_nothing _ rfl
  · next announces =>
    split at taken
    · contradiction
    · split at taken
      · next c read =>
        cases taken
        obtain ⟨more, announced⟩ := Nat.exists_eq_succ_of_ne_zero announces
        rw [announced, List.take_succ_cons] at read
        -- A Ctrl-C byte is none of a whole character, so a character that has one is broken.
        have other : ∀ b ∈ bytes.take more, b ≠ ctrlC := by
          rintro b mem rfl
          exact absurd (Utf8.high_of_single read _ mem) (by decide)
        have char := (accounts_nothing (bytes.drop more) (heard_press (.char c))).behind other
        rw [List.take_append_drop] at char
        rwa [announced]
      · cases taken
        exact accounts_nothing _ rfl

theorem byte_induction {P : UInt8 → Prop} (each : ∀ n < 256, P (UInt8.ofNat n)) (b : UInt8) :
    P b := by
  have holds := each b.toNat b.toNat_lt
  rwa [UInt8.ofNat_toNat] at holds

theorem isCtrl_ctrlLetter (b : UInt8) :
    b ≤ 0x1A → (ctrlLetter b).isCtrl 'c' = (b == ctrlC) := by
  revert b
  exact byte_induction (by decide +kernel)

theorem isCtrl_alone (b : UInt8) :
    ((alone b).map (·.isCtrl 'c')).getD false = (b == ctrlC) := by
  revert b
  exact byte_induction (by decide +kernel)

theorem decode_accounts (taken : decode byte bytes = some (event, rest)) :
    Accounts (byte :: bytes) event (cutsShort (byte :: bytes)) rest := by
  unfold decode at taken
  split at taken
  · next escape =>
    subst escape
    exact (afterEscape_accounts taken).cons (by decide)
  · next plain =>
    have whole : cutsShort (byte :: bytes) = false := by simp [cutsShort, plain]
    rw [whole]
    split at taken
    · next erases =>
      cases taken
      exact (accounts_nothing _ rfl).cons (by rcases erases with rfl | rfl <;> decide)
    · split at taken
      · next tab =>
        cases taken
        exact (accounts_nothing _ rfl).cons (tab ▸ by decide)
      · split at taken
        · next ends =>
          cases taken
          exact (accounts_nothing _ rfl).cons (by rcases ends with rfl | rfl <;> decide)
        · split at taken
          · next control =>
            cases taken
            refine ⟨[byte], rfl, ?_⟩
            have hears := isCtrl_ctrlLetter byte control.2
            simp [heard, hears, List.count_singleton, List.countP_singleton]
          · next other =>
            have quiet : byte ≠ ctrlC := by
              rintro rfl
              exact other (by decide)
            split at taken
            · cases taken
              exact (accounts_nothing _ (heard_press _)).cons quiet
            · split at taken
              · exact (longChar_accounts taken).cons quiet
              · cases taken
                exact (accounts_nothing _ rfl).cons quiet

theorem step_accounts {next : Decoder} (taken : step ⟨bytes, false⟩ = some (event, next))
    (plain : ¬ pasteOpener <:+: bytes) :
    next.inPaste = false ∧ Accounts bytes event (cutsShort bytes) next.pending := by
  cases bytes with
  | nil => contradiction
  | cons byte bytes =>
    simp only [step, Bool.false_eq_true, if_false] at taken
    split at taken
    · next opens =>
      exact absurd (List.isPrefixOf_iff_prefix.mp opens).isInfix plain
    · split at taken
      · contradiction
      · obtain ⟨⟨event, rest⟩, decoded, same⟩ := Option.map_eq_some_iff.mp taken
        cases same
        exact ⟨rfl, decode_accounts decoded⟩

end

/-- The bytes in front of each step of draining. -/
def starts (d : Decoder) : List (List UInt8) :=
  match taken : d.step with
  | none => []
  | some (_, next) =>
    have := length_step_lt taken
    d.pending :: next.starts
termination_by d.pending.length

theorem starts_of_none {d : Decoder} (waits : d.step = none) : d.starts = [] := by
  rw [starts]
  split
  · rfl
  · next taken =>
    rw [waits] at taken
    contradiction

theorem starts_of_some {d next : Decoder} {event : Option Event}
    (taken : d.step = some (event, next)) : d.starts = d.pending :: next.starts := by
  rw [starts]
  split
  · next waits =>
    rw [taken] at waits
    contradiction
  · next other =>
    rw [taken] at other
    cases other
    rfl

/-- Outside pastes each Ctrl-C byte is heard, lost with a sequence that it cuts short, or still
waits. -/
theorem drain_accounts (d : Decoder) (outside : d.inPaste = false)
    (plain : ¬ pasteOpener <:+: d.pending) :
    d.drain.2.inPaste = false ∧ d.pending.count ctrlC =
      d.drain.1.countP (·.isCtrl 'c') + d.starts.countP cutsShort +
        d.drain.2.pending.count ctrlC := by
  induction d using drain.induct with
  | case1 d waits =>
    rw [drain_of_none waits, starts_of_none waits]
    exact ⟨outside, by simp⟩
  | case2 d event next taken _ ih =>
    obtain ⟨bytes, inPaste⟩ := d
    cases outside
    obtain ⟨still, front, parts, count⟩ := step_accounts taken plain
    -- The mark of a paste is not in what is left either, so no paste ever opens.
    have later : ¬ pasteOpener <:+: next.pending := by
      intro opens
      rw [parts] at plain
      exact plain (opens.trans (List.suffix_append ..).isInfix)
    obtain ⟨last, counts⟩ := ih still later
    rw [drain_of_some taken, starts_of_some taken]
    refine ⟨last, ?_⟩
    have whole : bytes.count ctrlC = front.count ctrlC + next.pending.count ctrlC := by
      rw [← List.count_append, ← parts]
    have lost : (if cutsShort bytes = true then 1 else 0) = (cutsShort bytes).toNat := by
      cases cutsShort bytes <;> rfl
    have hears : event.toList.countP (·.isCtrl 'c') = heard event := rfl
    dsimp only
    rw [List.countP_append, List.countP_cons, lost, hears]
    omega

theorem flush_count (d : Decoder) (outside : d.inPaste = false) :
    d.flush.countP (·.isCtrl 'c') = d.pending.count ctrlC := by
  obtain ⟨bytes, inPaste⟩ := d
  cases outside
  rw [flush, if_neg Bool.false_ne_true, List.countP_filterMap]
  refine List.countP_congr fun b _ => ?_
  rw [isCtrl_alone]

/-- The events of chunks, and those of the bytes that are left in the end. -/
def flushed (chunks : List (List UInt8)) : List Event :=
  (fresh.feedAll chunks).1 ++ (fresh.feedAll chunks).2.flush

theorem flushed_count {chunks : List (List UInt8)} (plain : ¬ pasteOpener <:+: chunks.flatten) :
    chunks.flatten.count ctrlC = (flushed chunks).countP (·.isCtrl 'c') +
      (starts ⟨chunks.flatten, false⟩).countP cutsShort := by
  obtain ⟨outside, counts⟩ := drain_accounts ⟨chunks.flatten, false⟩ rfl plain
  have fed : fresh.feedAll chunks = drain ⟨chunks.flatten, false⟩ :=
    feedAll_eq_feed _ .fresh chunks
  rw [flushed, fed, List.countP_append, flush_count _ outside]
  dsimp only at counts
  omega

end Decoder

end LSystem.Terminal

namespace LSystem.Viewer

open Terminal

theorem respond_ctrlC (v : Viewer) {e : Event} (ctrl : e.isCtrl 'c' = true) :
    (v.respond e).2 = true := by
  cases e with
  | paste => contradiction
  | key k m =>
    have quits : wish v.mode k m = .quit := if_pos ctrl
    simp only [respond, quits]

/-- Of the Ctrl-C bytes outside of pastes all are heard but those that cut an escape sequence
short, and any that is heard makes a viewer quit in whatever mode it is. -/
theorem ctrlC_heard (chunks : List (List UInt8))
    (plain : ¬ Decoder.pasteOpener <:+: chunks.flatten) :
    let events := Decoder.flushed chunks
    let heard := events.countP (·.isCtrl 'c')
    let starts := Decoder.starts ⟨chunks.flatten, false⟩
    heard + starts.countP Decoder.cutsShort = chunks.flatten.count 0x03 ∧
      (heard = chunks.flatten.count 0x03 ↔ ∀ bytes ∈ starts, ¬ Decoder.cutsShort bytes) ∧
      ∀ v : Viewer, 0 < heard → (v.respondAll events).2 = true := by
  intro events heard starts
  have counts : chunks.flatten.count 0x03 = heard + starts.countP Decoder.cutsShort :=
    Decoder.flushed_count plain
  refine ⟨counts.symm, ?_, fun v some => ?_⟩
  · rw [← List.countP_eq_zero, counts]
    omega
  · obtain ⟨e, mem, ctrl⟩ := List.countP_pos_iff.mp some
    exact App.deliver_quits mem (fun v => respond_ctrlC v ctrl) v

/-- Three of four Ctrl-C bytes are heard: behind the first byte of a character, behind an escape
byte, and alone, but not within a sequence. -/
theorem ctrlC_heard_behind_garbage :
    let chunks : List (List UInt8) := [[0xE2, 0x03, 0x1B], [0x03, 0x1B, 0x5B, 0x31], [0x03, 0x03]]
    ¬ Decoder.pasteOpener <:+: chunks.flatten ∧
      (Decoder.flushed chunks).countP (·.isCtrl 'c') +
        (Decoder.starts ⟨chunks.flatten, false⟩).countP Decoder.cutsShort = 4 := by
  intro chunks
  have plain : ¬ Decoder.pasteOpener <:+: chunks.flatten := by decide
  exact ⟨plain, (ctrlC_heard chunks plain).1⟩

/-- A Ctrl-C byte within a sequence is not heard. -/
theorem ctrlC_lost_in_sequence :
    ¬ ∀ chunks : List (List UInt8), ¬ Decoder.pasteOpener <:+: chunks.flatten →
      (Decoder.flushed chunks).countP (·.isCtrl 'c') = chunks.flatten.count 0x03 := by
  intro always
  have step : Decoder.step ⟨[0x1B, 0x5B, 0x03], false⟩ = some (none, .fresh) := by decide
  have fed : Decoder.fresh.feedAll [[0x1B, 0x5B, 0x03]] =
      Decoder.drain ⟨[0x1B, 0x5B, 0x03], false⟩ := Decoder.feedAll_eq_feed _ .fresh _
  have silent : Decoder.flushed [[0x1B, 0x5B, 0x03]] = [] := by
    rw [Decoder.flushed, fed, Decoder.drain_of_some step, Decoder.drain_of_none rfl]
    rfl
  have heard := always [[0x1B, 0x5B, 0x03]] (by decide)
  rw [silent] at heard
  contradiction

end LSystem.Viewer
