import LSystem.Proofs.CursorPlacement

/-! One key in the editor. A key that is refused does nothing at all. One that is accepted changes the
field under the cursor and nothing else of the fractal; only a rule's own symbol typed again leaves
the fractal as it was, and then the cursor goes on to the replacement. This holds of every cursor,
also of one that was left on a row of another fractal. -/

namespace LSystem

/-- A key that edits. -/
inductive Keystroke where
  | type (ch : Char)
  | erase

namespace Keystroke

/-- What the key makes of a text: typing puts a capital at its end, erasing takes its last
character. -/
def Alters : Keystroke → String → String → Prop
  | .type ch, old, new => new = old.push ch.toUpper
  | .erase, old, new => ∃ last, old = new.push last

/-- The symbol that the key gives to a rule. -/
def symbol : Keystroke → Char
  | .type ch => ch.toUpper
  | .erase => Rules.pendingSymbol

/-- What the key makes of the rules when `field` is under the cursor. A replacement is altered as
any text; a symbol becomes one that no rule had. All other rules and the order stay. -/
def AltersRules (key : Keystroke) : Field → Rules → Rules → Prop
  | .name, old, new | .seed, old, new => new = old
  | .symbol i, old, new => ∃ symbol value, old.nth? i = some (symbol, value) ∧
      key.symbol ∉ old.symbols ∧ new.entries = old.entries.set i (key.symbol, value)
  | .value i, old, new => ∃ symbol value altered, old.nth? i = some (symbol, value) ∧
      key.Alters value altered ∧ new.entries = old.entries.set i (symbol, altered)

end Keystroke

namespace Fractal

/-- The key has changed this field, and nothing else. -/
structure FieldChange (key : Keystroke) (field : Field) (f next : Fractal) : Prop where
  name : if field = .name then key.Alters f.name next.name else next.name = f.name
  seed : if field = .seed then key.Alters f.seed next.seed else next.seed = f.seed
  rules : key.AltersRules field f.rules next.rules
  angle : next.angle = f.angle
  revision : next.revision = f.revision + 1

variable {f next : Fractal} {key : Keystroke} {i : Nat} {ch : Char}

theorem FieldChange.ne {field : Field} (change : FieldChange key field f next) : next ≠ f := by
  rintro rfl
  have counted := change.revision
  grind

theorem fieldChange_name {name : String} (alters : key.Alters f.name name) :
    FieldChange key .name f (edited { f with name }) :=
  ⟨alters, rfl, rfl, rfl, rfl⟩

theorem fieldChange_seed {seed : String} (alters : key.Alters f.seed seed) :
    FieldChange key .seed f (edited { f with seed }) :=
  ⟨rfl, alters, rfl, rfl, rfl⟩

theorem fieldChange_value {rules : Rules} (alters : key.AltersRules (.value i) f.rules rules) :
    FieldChange key (.value i) f (edited { f with rules }) :=
  ⟨rfl, rfl, alters, rfl, rfl⟩

theorem fieldChange_symbol {rules : Rules} (alters : key.AltersRules (.symbol i) f.rules rules) :
    FieldChange key (.symbol i) f (edited { f with rules }) :=
  ⟨rfl, rfl, alters, rfl, rfl⟩

theorem popName_change (popped : f.popName? = some next) : FieldChange .erase .name f next := by
  obtain ⟨name, dropped, rfl⟩ := Option.map_eq_some_iff.mp popped
  exact fieldChange_name (dropLast?_eq_some_iff.mp dropped)

theorem popSeed_change (popped : f.popSeed? = some next) : FieldChange .erase .seed f next := by
  obtain ⟨seed, dropped, rfl⟩ := Option.map_eq_some_iff.mp popped
  exact fieldChange_seed (dropLast?_eq_some_iff.mp dropped)

theorem modifyValue_alters {value : String} {change : String → String}
    (here : f.rules.value? i = some value) (alters : key.Alters value (change value)) :
    key.AltersRules (.value i) f.rules (f.rules.modifyValue i change) := by
  obtain ⟨⟨symbol, value⟩, found, rfl⟩ := Option.map_eq_some_iff.mp here
  exact ⟨symbol, value, change value, found, alters, Rules.entries_modifyValue found change⟩

theorem pushValue_change (pushed : f.pushValue? i ch.toUpper = some next) :
    FieldChange (.type ch) (.value i) f next := by
  obtain ⟨value, here, rfl⟩ := Option.map_eq_some_iff.mp pushed
  exact fieldChange_value (modifyValue_alters here rfl)

theorem popValue_change (popped : f.popValue? i = some next) :
    FieldChange .erase (.value i) f next := by
  obtain ⟨shorter, found, rfl⟩ := Option.map_eq_some_iff.mp popped
  obtain ⟨value, here, dropped⟩ := Option.bind_eq_some_iff.mp found
  exact fieldChange_value (modifyValue_alters here (dropLast?_eq_some_iff.mp dropped))

theorem renameRule_change (renamed : f.renameRule? i key.symbol = some next)
    (other : ¬ f.KeepsSymbol (.renameRule i key.symbol)) :
    FieldChange key (.symbol i) f next := by
  rw [KeepsSymbol] at other
  obtain ⟨rules, given, rfl⟩ := Option.map_eq_some_iff.mp renamed
  rw [if_neg other]
  obtain ⟨old, value, here, entries⟩ := Rules.entries_rename? given
  obtain ⟨_, _, found, own | free⟩ := Rules.rename?_isSome_iff.mp (Option.isSome_of_eq_some given)
  · rw [found] at other
    exact absurd (congrArg some own) other
  · exact fieldChange_symbol ⟨old, value, here, free, entries⟩

end Fractal

namespace Cursor

open Fractal

/-- What the key does; `none` when it is refused. -/
def strike? (c : Cursor) (f : Fractal) : Keystroke → Option (Cursor × Fractal)
  | .type ch => c.type? f ch
  | .erase => c.erase? f

/-- The cursor and the fractal after the key. A refused one leaves them. -/
def strike (c : Cursor) (f : Fractal) (key : Keystroke) : Cursor × Fractal :=
  (c.strike? f key).getD (c, f)

variable {c : Cursor} {f : Fractal} {key : Keystroke} {moved : Cursor × Fractal}

theorem onSymbol_of_field {i : Nat} (on : c.field? f = some (.symbol i)) : c.onSymbol = true := by
  unfold field? at on
  split at on
  · simp at on
  · simp at on
  · split at on
    · contradiction
    · cases symbol : c.onSymbol with
      | true => rfl
      | false => simp [symbol] at on

theorem toValue_ne {i : Nat} (on : c.field? f = some (.symbol i)) : c.toValue ≠ c := by
  intro same
  have off : c.onSymbol = false := (congrArg Cursor.onSymbol same).symm
  rw [onSymbol_of_field on] at off
  contradiction

theorem not_keepsSymbol_of_erase {i : Nat} (on : c.field? f = some (.symbol i))
    (erased : c.erase? f = some moved) :
    ¬ f.KeepsSymbol (.renameRule i Rules.pendingSymbol) := by
  intro pending
  rw [KeepsSymbol] at pending
  simp only [erase?, on, pending, if_true] at erased
  contradiction

/-- An accepted key changes the field under the cursor, or it is the symbol that the rule under the
cursor has, and only the cursor moves. -/
theorem strike?_cases (struck : c.strike? f key = some moved) :
    ∃ field, c.field? f = some field ∧
      (FieldChange key field f moved.2 ∨ moved = (c.toValue, f) ∧ moved.1 ≠ c) := by
  cases key with
  | type ch =>
    obtain ⟨on, rfl⟩ | ⟨on, rfl⟩ | ⟨i, next, on, pushed, rfl⟩ | ⟨i, next, on, _, renamed, rfl⟩ :=
      type_cases struck
    · exact ⟨_, on, .inl (fieldChange_name rfl)⟩
    · exact ⟨_, on, .inl (fieldChange_seed rfl)⟩
    · exact ⟨_, on, .inl (pushValue_change pushed)⟩
    · obtain ⟨_, rfl⟩ | ⟨other, _⟩ := renameRule_cases renamed
      · exact ⟨_, on, .inr ⟨rfl, toValue_ne on⟩⟩
      · have change : FieldChange (.type ch) (.symbol i) f next := renameRule_change renamed other
        exact ⟨_, on, .inl change⟩
  | erase =>
    obtain ⟨next, on, popped, rfl⟩ | ⟨next, on, popped, rfl⟩ | ⟨i, next, on, popped, rfl⟩ |
      ⟨i, next, on, renamed, rfl⟩ := erase_cases struck
    · exact ⟨_, on, .inl (popName_change popped)⟩
    · exact ⟨_, on, .inl (popSeed_change popped)⟩
    · exact ⟨_, on, .inl (popValue_change popped)⟩
    · have change : FieldChange .erase (.symbol i) f next :=
        renameRule_change renamed (not_keepsSymbol_of_erase on struck)
      exact ⟨_, on, .inl change⟩

theorem strike?_ne (struck : c.strike? f key = some moved) : moved ≠ (c, f) := by
  rintro rfl
  obtain ⟨_, _, change | ⟨_, apart⟩⟩ := strike?_cases struck
  · exact change.ne rfl
  · exact apart rfl

/-- A key is accepted exactly if it changes the fractal or the cursor. If it changes the fractal, it
changes the field under the cursor and nothing else, and counts one edit. Wherever the cursor was,
after a move it is on a field. -/
theorem keystroke_changes_field (c : Cursor) (f : Fractal) (key : Keystroke) :
    let moved := (c.strike f key).1
    let next := (c.strike f key).2
    ((c.strike? f key).isSome ↔ (moved, next) ≠ (c, f)) ∧
    (c.strike? f key = none → moved = c ∧ next = f) ∧
    (next ≠ f → next.rules.symbols.Nodup ∧
      ∃ field, c.field? f = some field ∧ FieldChange key field f next) ∧
    (∃ field, (c.moveUp f).1.field? (c.moveUp f).2 = some field) ∧
    (∃ field, (c.moveDown f).1.field? (c.moveDown f).2 = some field) ∧
    ∀ row, ∃ field, (c.enter f row).field? f = some field := by
  intro moved next
  have lands : ∀ {c : Cursor} {f : Fractal}, c.Within f → ∃ field, c.field? f = some field :=
    fun within => within.field.imp fun _ on => on.1
  have moves := And.intro (lands (moveUp_within c f)) <| And.intro (lands (moveDown_within c f))
    fun row => lands (enter_within c f row)
  cases struck : c.strike? f key with
  | none =>
    have stays : (moved, next) = (c, f) := by simp only [moved, next, strike, struck, Option.getD_none]
    have still : moved = c ∧ next = f := Prod.mk.inj stays
    refine ⟨?_, fun _ => still, fun changed => absurd still.2 changed, moves⟩
    exact iff_of_false Bool.false_ne_true (not_not_intro stays)
  | some after =>
    have goes : (moved, next) = after := by simp only [moved, next, strike, struck, Option.getD_some]
    have apart : (moved, next) ≠ (c, f) := goes ▸ strike?_ne struck
    refine ⟨iff_of_true rfl apart, fun refused => ?_, fun changed => ?_, moves⟩
    · contradiction
    · obtain ⟨field, on, change | ⟨same, _⟩⟩ := strike?_cases struck
      · rw [← goes] at change
        exact ⟨next.rules.distinct, field, on, change⟩
      · exact absurd (congrArg Prod.snd (goes.trans same)) changed

/-- The arrowhead curve with the cursor on its second symbol: that of the first rule is refused, its
own only moves the cursor, and erasing it makes the rule a pending one. -/
theorem arrowhead_keystroke_changes_field :
    let f := Fractal.new "Tri" "A" 60 (.ofPairs [('A', "B-A-B"), ('B', "A+B+A")])
    let c : Cursor := { row := 3, onSymbol := true }
    (c.strike f (.type 'a') = (c, f)) ∧ (c.strike f (.type 'b') = (c.toValue, f)) ∧
      (c.strike f .erase).2 ≠ f ∧
      ∃ field, c.field? f = some field ∧ FieldChange .erase field f (c.strike f .erase).2 := by
  intro f c
  have refused : c.strike? f (.type 'a') = none := by decide
  have changed : (c.strike f .erase).2 ≠ f := by decide
  obtain ⟨_, stays, _⟩ := keystroke_changes_field c f (.type 'a')
  obtain ⟨_, _, changes, _⟩ := keystroke_changes_field c f .erase
  exact ⟨Prod.ext (stays refused).1 (stays refused).2, by decide, changed, (changes changed).2⟩

end Cursor

end LSystem
