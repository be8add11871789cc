import LSystem.Scene
import LSystem.Proofs.Revisions

/-! What one intent can do to the fractal on display. Nothing happens to it, or one edit of the kind
that the intent makes, and that is counted; so an equal revision of the same fractal means that
nothing happened. The counter wraps around, which does no harm within one intent. -/

namespace LSystem

/-- The edits that an intent can come to. A character is typed as a capital. To erase a symbol is to
rename the rule, and whatever leaves a pending rule drops it. -/
inductive Intent.Makes : Intent → Fractal.Edit → Prop where
  | pushName (ch : Char) : Makes (.append ch) (.pushName ch.toUpper)
  | pushSeed (ch : Char) : Makes (.append ch) (.pushSeed ch.toUpper)
  | pushValue (ch : Char) (rule : Nat) : Makes (.append ch) (.pushValue rule ch.toUpper)
  | giveSymbol (ch : Char) (rule : Nat) : Makes (.append ch) (.renameRule rule ch.toUpper)
  | popName : Makes .backspace .popName
  | popSeed : Makes .backspace .popSeed
  | popValue (rule : Nat) : Makes .backspace (.popValue rule)
  | takeSymbol (rule : Nat) : Makes .backspace (.renameRule rule Rules.pendingSymbol)
  | openRule : Makes .cursorDown .openRule
  | dropPending {i : Intent} (leaves : i ∈ [.cursorUp, .nextFractal, .previousFractal, .newFractal]) :
      Makes i .dropPending

namespace Fractal

/-- Nothing was edited, or one edit of the intent changed the content, and was counted. -/
def OneEdit (i : Intent) (f next : Fractal) : Prop :=
  next = f ∨ ∃ edit, i.Makes edit ∧ f.edit? edit = some next ∧ f.Changed next

variable {i : Intent} {f next : Fractal}

theorem OneEdit.of_makes {edit : Edit} (makes : i.Makes edit) (made : f.edit? edit = some next) :
    f.OneEdit i next := by
  obtain ⟨_, same⟩ | ⟨_, changed⟩ := edit?_cases made
  · exact .inl same
  · exact .inr ⟨edit, makes, made, changed⟩

theorem OneEdit.eq_of_revision (once : f.OneEdit i next) (same : next.revision = f.revision) :
    next = f := by
  obtain unedited | ⟨_, _, _, changed⟩ := once
  · exact unedited
  · have moved : f.revision + 1 ≠ f.revision := by grind
    exact absurd (changed.revision.symm.trans same) moved

theorem dropPending_oneEdit (f : Fractal) (makes : i.Makes .dropPending) :
    f.OneEdit i f.dropPending := by
  unfold dropPending
  cases dropped : f.dropPending? with
  | none => exact .inl rfl
  | some next => exact .of_makes makes dropped

end Fractal

namespace Cursor

theorem moveDown_cases (c : Cursor) (f : Fractal) :
    (c.row + 1 ≤ lastRow f ∧ c.moveDown f = ({ c with row := c.row + 1 }, f)) ∨
    (∃ opened, lastRow f ≤ c.row ∧ f.openRule? = some opened ∧
      c.moveDown f = ({ row := lastRow f + 1, onSymbol := true }, opened)) ∨
    (lastRow f ≤ c.row ∧ f.openRule? = none ∧ c.moveDown f = ({ c with row := lastRow f }, f)) := by
  by_cases above : c.row + 1 ≤ lastRow f
  · exact .inl ⟨above, if_pos above⟩
  · right
    have last : lastRow f ≤ c.row := by omega
    cases found : f.openRule? with
    | some opened => exact .inl ⟨opened, last, rfl, by simp only [moveDown, if_neg above, found]⟩
    | none => exact .inr ⟨last, rfl, by simp only [moveDown, if_neg above, found]⟩

/-- What typing has done if it was not refused, by what the cursor was on. -/
theorem type_cases {c : Cursor} {f : Fractal} {ch : Char} {moved : Cursor × Fractal}
    (typed : c.type? f ch = some moved) :
    (c.field? f = some .name ∧ moved = (c, f.pushName ch.toUpper)) ∨
    (c.field? f = some .seed ∧ moved = (c, f.pushSeed ch.toUpper)) ∨
    (∃ rule next, c.field? f = some (.value rule) ∧ f.pushValue? rule ch.toUpper = some next ∧
      moved = (c, next)) ∨
    (∃ rule next, c.field? f = some (.symbol rule) ∧ ch.toUpper ≠ Rules.pendingSymbol ∧
      f.renameRule? rule ch.toUpper = some next ∧ moved = (c.toValue, next)) := by
  unfold type? at typed
  split at typed
  · dsimp only at typed
    split at typed
    · next on => exact .inl ⟨on, (Option.some.inj typed).symm⟩
    · next on => exact .inr (.inl ⟨on, (Option.some.inj typed).symm⟩)
    · next rule on =>
      obtain ⟨next, pushed, rfl⟩ := Option.map_eq_some_iff.mp typed
      exact .inr (.inr (.inl ⟨rule, next, on, pushed, rfl⟩))
    · next rule on =>
      split at typed
      · contradiction
      · next named =>
        obtain ⟨next, renamed, rfl⟩ := Option.map_eq_some_iff.mp typed
        exact .inr (.inr (.inr ⟨rule, next, on, named, renamed, rfl⟩))
    · contradiction
  · contradiction

/-- What deleting has done if it was not refused, by what the cursor was on. -/
theorem erase_cases {c : Cursor} {f : Fractal} {moved : Cursor × Fractal}
    (erased : c.erase? f = some moved) :
    (∃ next, c.field? f = some .name ∧ f.popName? = some next ∧ moved = (c, next)) ∨
    (∃ next, c.field? f = some .seed ∧ f.popSeed? = some next ∧ moved = (c, next)) ∨
    (∃ rule next, c.field? f = some (.value rule) ∧ f.popValue? rule = some next ∧
      moved = (c, next)) ∨
    (∃ rule next, c.field? f = some (.symbol rule) ∧
      f.renameRule? rule Rules.pendingSymbol = some next ∧ moved = (c, next)) := by
  unfold erase? at erased
  split at erased
  · next on =>
    obtain ⟨next, popped, rfl⟩ := Option.map_eq_some_iff.mp erased
    exact .inl ⟨next, on, popped, rfl⟩
  · next on =>
    obtain ⟨next, popped, rfl⟩ := Option.map_eq_some_iff.mp erased
    exact .inr (.inl ⟨next, on, popped, rfl⟩)
  · next rule on =>
    obtain ⟨next, popped, rfl⟩ := Option.map_eq_some_iff.mp erased
    exact .inr (.inr (.inl ⟨rule, next, on, popped, rfl⟩))
  · next rule on =>
    split at erased
    · contradiction
    · obtain ⟨next, renamed, rfl⟩ := Option.map_eq_some_iff.mp erased
      exact .inr (.inr (.inr ⟨rule, next, on, renamed, rfl⟩))
  · contradiction

theorem moveDown_oneEdit (c : Cursor) (f : Fractal) : f.OneEdit .cursorDown (c.moveDown f).2 := by
  obtain ⟨_, moved⟩ | ⟨opened, _, found, moved⟩ | ⟨_, _, moved⟩ := c.moveDown_cases f
  · exact .inl (congrArg Prod.snd moved)
  · rw [moved]
    exact .of_makes .openRule found
  · exact .inl (congrArg Prod.snd moved)

theorem moveUp_oneEdit (c : Cursor) (f : Fractal) : f.OneEdit .cursorUp (c.moveUp f).2 :=
  f.dropPending_oneEdit (.dropPending (by simp))

theorem type_oneEdit {c : Cursor} {f : Fractal} {ch : Char} {moved : Cursor × Fractal}
    (typed : c.type? f ch = some moved) : f.OneEdit (.append ch) moved.2 := by
  obtain ⟨_, rfl⟩ | ⟨_, rfl⟩ | ⟨rule, _, _, pushed, rfl⟩ | ⟨rule, _, _, _, renamed, rfl⟩ :=
    type_cases typed
  · exact .of_makes (.pushName ch) rfl
  · exact .of_makes (.pushSeed ch) rfl
  · exact .of_makes (.pushValue ch rule) pushed
  · exact .of_makes (.giveSymbol ch rule) renamed

theorem erase_oneEdit {c : Cursor} {f : Fractal} {moved : Cursor × Fractal}
    (erased : c.erase? f = some moved) : f.OneEdit .backspace moved.2 := by
  obtain ⟨_, _, popped, rfl⟩ | ⟨_, _, popped, rfl⟩ | ⟨rule, _, _, popped, rfl⟩ |
    ⟨rule, _, _, renamed, rfl⟩ := erase_cases erased
  · exact .of_makes .popName popped
  · exact .of_makes .popSeed popped
  · exact .of_makes (.popValue rule) popped
  · exact .of_makes (.takeSymbol rule) renamed

end Cursor

namespace Gallery

theorem getElem_modify (g : Gallery) (i j : Nat) (change : Fractal → Fractal)
    (inside : j < g.size) (still : j < (g.modify i change).size) :
    (g.modify i change)[j] = if i = j then change g[j] else g[j] :=
  List.getElem_modify change i g.fractals j still

theorem get?_modify (g : Gallery) {i j : Nat} (apart : i ≠ j) (change : Fractal → Fractal) :
    (g.modify i change).get? j = g.get? j := by
  simp [get?, modify, apart]

theorem get?_modify_self {g : Gallery} {i : Nat} {change : Fractal → Fractal} {f : Fractal}
    (found : (g.modify i change).get? i = some f) : ∃ old, f = change old := by
  simp only [get?, modify, List.getElem?_modify, if_pos] at found
  obtain ⟨old, _, same⟩ := Option.map_eq_some_iff.mp found
  exact ⟨old, same.symm⟩

theorem get?_push {g : Gallery} {f found : Fractal} {i : Nat}
    (shown : (g.push f).get? i = some found) : g.get? i = some found ∨ found = f := by
  simp only [get?, push, List.getElem?_append] at shown
  split at shown
  · exact .inl shown
  · exact .inr (List.mem_singleton.mp (List.mem_of_getElem? shown))

end Gallery

namespace Scene

theorem get?_selected (s : Scene) : s.gallery.get? s.view.selected = some s.current :=
  List.getElem?_eq_getElem s.selected_lt

theorem current_withView (s : Scene) (change : View → View)
    (keeps : (change s.view).selected = s.view.selected) :
    (s.withView change keeps).current = s.current := by
  simp only [current, withView, keeps]

theorem current_edit (s : Scene) (change : Cursor → Fractal → Cursor × Fractal) :
    (s.edit change).current = (change s.view.cursor s.current).2 := by
  have inside := s.selected_lt
  simp only [current, edit, s.gallery.getElem_modify _ _ _ inside, if_pos]

theorem current_tryEdit (s : Scene) {i : Intent}
    (change : Cursor → Fractal → Option (Cursor × Fractal))
    (once : ∀ moved, change s.view.cursor s.current = some moved → s.current.OneEdit i moved.2) :
    s.current.OneEdit i (s.tryEdit change).current := by
  unfold tryEdit
  split
  · next moved found =>
    rw [current_edit]
    exact once moved found
  · exact .inl rfl

theorem current_select_self (s : Scene) (inside : s.view.selected < s.gallery.size) :
    (s.select s.view.selected inside).current = s.current.dropPending := by
  simp only [current, select, s.gallery.getElem_modify _ _ _ inside, if_pos]

theorem select_oneEdit (s : Scene) {i : Intent} (makes : i.Makes .dropPending) (k : Nat)
    (inside : k < s.gallery.size) (stays : k = s.view.selected) :
    s.current.OneEdit i (s.select k inside).current := by
  subst stays
  rw [current_select_self]
  exact s.current.dropPending_oneEdit makes

/-- As long as the same fractal is selected, an intent edits it at most once. -/
theorem act_oneEdit (s : Scene) (i : Intent) (stays : (s.act i).view.selected = s.view.selected) :
    s.current.OneEdit i (s.act i).current := by
  cases i with
  | nextFractal => exact s.select_oneEdit (.dropPending (by simp)) _ _ stays
  | previousFractal => exact s.select_oneEdit (.dropPending (by simp)) _ _ stays
  | newFractal =>
    have inside := s.selected_lt
    have outside : s.gallery.size = s.view.selected := stays
    omega
  | append ch => exact s.current_tryEdit _ fun _ typed => Cursor.type_oneEdit typed
  | backspace => exact s.current_tryEdit _ fun _ erased => Cursor.erase_oneEdit erased
  | cursorUp =>
    have moved := s.current_edit Cursor.moveUp
    exact moved ▸ Cursor.moveUp_oneEdit _ _
  | cursorDown =>
    have moved := s.current_edit Cursor.moveDown
    exact moved ▸ Cursor.moveDown_oneEdit _ _
  | enterField row => exact .inl (s.current_edit _)
  | toggleHalf => exact .inl (s.current_edit _)
  | editSymbol => exact .inl (s.current_edit _)
  | editValue => exact .inl (s.current_edit _)
  | _ => exact .inl (s.current_withView _ stays)

end Scene

end LSystem
