import LSystem.Proofs.CachedGeneration
import LSystem.Proofs.EventLoop
import LSystem.Proofs.Terminal.Keyboard

/-! While a fractal is edited, pasting a text is typing it. The paste arrives as one event, which
leaves the control characters out; the keys arrive as one event each. Both come to the same
intents in the same order, whether these are accepted, rejected or refused. -/

namespace LSystem

open Terminal Text

namespace Terminal.Decoder

theorem feed_shown {text : List Char} (shows : ∀ ch ∈ text, 0x20 ≤ ch.toNat ∧ ch.toNat ≠ 0x7F) :
    fresh.feed (Utf8.encode text) = (text.map fun ch => .press (.char ch), fresh) := by
  induction text with
  | nil => exact drain_of_none rfl
  | cons ch text ih =>
    have first : fresh.feed (String.utf8EncodeChar ch) = ([.press (.char ch)], fresh) := by
      simpa [Input.bytes, Input.sent, Input.event, Utf8.encode] using
        feed_typed ch (shows ch List.mem_cons_self)
    have rest := ih fun c mem => shows c (List.mem_cons_of_mem _ mem)
    simp [Utf8.encode_cons, feed_append, first, rest]

end Terminal.Decoder

namespace Viewer

/-- Asks for the characters one after another, as typing does. -/
def appendAll (v : Viewer) (text : List Char) : Viewer :=
  text.foldl (fun v ch => v.apply (.append ch)) v

@[simp] theorem mode_apply (v : Viewer) (i : Intent) : (v.apply i).mode = v.mode := by
  simp only [apply]
  split <;> rfl

@[simp] theorem mode_appendAll (v : Viewer) (text : List Char) :
    (v.appendAll text).mode = v.mode := by
  induction text generalizing v with
  | nil => rfl
  | cons ch text ih => simpa [appendAll] using ih (v.apply (.append ch))

theorem respond_char {v : Viewer} (editing : v.mode = .edit) (ch : Char) :
    v.respond (.press (.char ch)) = (v.apply (.append ch), false) := by
  simp [respond, wish, Event.press, Event.isCtrl, editing, editKey]

theorem respondAll_chars {v : Viewer} (editing : v.mode = .edit) (text : List Char) :
    v.respondAll (text.map fun ch => .press (.char ch)) = (v.appendAll text, false) := by
  induction text generalizing v with
  | nil => rfl
  | cons ch text ih =>
    have still : (v.apply (.append ch)).mode = .edit := by simpa using editing
    rw [List.map_cons, respondAll, App.deliver_on (respond_char editing ch)]
    exact ih still

/-- The text without its control characters. -/
def shown (text : String) : List Char := text.toList.filter fun ch => !isControl ch

theorem respondAll_paste {v : Viewer} (editing : v.mode = .edit) (text : String) :
    v.respondAll [.paste text] = (v.appendAll (shown text), false) := by
  have pasted : v.respond (.paste text) = (v.appendAll (shown text), false) := by
    simp [respond, paste, editing, appendAll, shown]
  rw [respondAll, App.deliver_on pasted]
  rfl

theorem shows_of_mem_shown {text : String} {ch : Char} (mem : ch ∈ shown text) :
    0x20 ≤ ch.toNat ∧ ch.toNat ≠ 0x7F := by
  have plain := (List.mem_filter.mp mem).2
  simp [isControl] at plain
  omega

/-- A paste does to a viewer that edits what the keys of its characters do, the control
characters left out. Neither ends editing, and the decoder is left as it was. -/
theorem paste_like_typing (v : Viewer) (editing : v.mode = .edit) (text : String)
    (closed : ¬ pasteEnd <:+: text.toList) :
    let pasted := Decoder.fresh.feed
      (Decoder.pasteOpener ++ Utf8.encode text.toList ++ Decoder.pasteCloser)
    let typed := Decoder.fresh.feed
      (Utf8.encode (text.toList.filter fun ch => !isControl ch))
    (v.respondAll pasted.1).1 = (v.respondAll typed.1).1 ∧
      (v.respondAll pasted.1).2 = false ∧ (v.respondAll typed.1).2 = false ∧
      (v.respondAll pasted.1).1.mode = .edit ∧ (v.respondAll typed.1).1.mode = .edit ∧
      pasted.2 = .fresh ∧ typed.2 = .fresh := by
  intro pasted typed
  have paste : pasted = ([.paste text], .fresh) := by
    simpa only [String.ofList_toList] using Decoder.feed_paste text.toList closed
  have keys : typed = ((shown text).map fun ch => .press (.char ch), .fresh) :=
    Decoder.feed_shown fun _ => shows_of_mem_shown
  rw [paste, keys]
  dsimp only
  rw [respondAll_paste editing, respondAll_chars editing]
  simp [editing]

/-- On the symbol of the dragon curve's first rule: the symbol of the other rule is rejected, the
line feed is left out, `x` renames the rule and takes the cursor on to the replacement, which
rejects `Ł` and takes `+`. -/
theorem dragon_paste_like_typing :
    let text := String.ofList ['g', '\n', 'x', 'Ł', '+']
    ∃ s, Session.start .seeded { iterations := 0 } 1 = .ok s ∧
      let v : Viewer := ⟨s.run [.cursorDown, .cursorDown, .editSymbol], .edit, none⟩
      (v.respondAll (Decoder.fresh.feed
          (Decoder.pasteOpener ++ Utf8.encode text.toList ++ Decoder.pasteCloser)).1).1 =
        (v.respondAll (Decoder.fresh.feed
          (Utf8.encode (text.toList.filter fun ch => !isControl ch))).1).1 := by
  intro text
  have closed : ¬ pasteEnd <:+: text.toList := by
    rw [String.toList_ofList]
    decide
  exact ⟨_, rfl, (paste_like_typing _ rfl text closed).1⟩

end Viewer

end LSystem
