import LSystem.Fractal
import LSystem.Proofs.OrderedRules

/-! The revision counts the changes of a fractal's content. An edit that is accepted changes the
name, the seed or the rules, unless it gives a rule the symbol that it has; so over any run the
counter grows by one, modulo 2^64, for each step that leads to other content, and by nothing else. -/

namespace LSystem

theorem push_ne (s : String) (c : Char) : s.push c ≠ s := by
  intro same
  have length := congrArg String.length same
  rw [String.length_push] at length
  omega

theorem dropLast?_eq_some_iff {s shorter : String} :
    dropLast? s = some shorter ↔ ∃ c, s = shorter.push c := by
  unfold dropLast?
  constructor
  · intro dropped
    split at dropped
    · contradiction
    · next filled =>
      cases dropped
      have symbols : s.toList ≠ [] := by simpa using filled
      refine ⟨s.toList.getLast symbols, ?_⟩
      rw [← String.toList_inj, String.toList_push, String.toList_ofList,
        List.dropLast_concat_getLast]
  · rintro ⟨c, rfl⟩
    have filled : ¬ (shorter.push c).isEmpty := by simp
    rw [if_neg filled, String.toList_push, List.dropLast_concat, String.ofList_toList]

theorem dropLast?_ne {s shorter : String} (dropped : dropLast? s = some shorter) : shorter ≠ s := by
  obtain ⟨c, rfl⟩ := dropLast?_eq_some_iff.mp dropped
  exact (push_ne shorter c).symm

namespace Rules

theorem append?_ne {r next : Rules} {symbol : Char} {value : String}
    (appended : r.append? symbol value = some next) : next ≠ r := by
  rintro rfl
  have grown := size_append? appended
  omega

theorem erase_pending_ne {r : Rules} (pending : r.hasPending) : r.erase pendingSymbol ≠ r := by
  intro same
  have none : (r.erase pendingSymbol).hasPending = false := r.hasPending_committed
  rw [same, pending] at none
  contradiction

theorem rename?_ne {r next : Rules} {i : Nat} {symbol : Char}
    (renamed : r.rename? i symbol = some next)
    (other : (r.nth? i).map Prod.fst ≠ some symbol) : next ≠ r := by
  rintro rfl
  obtain ⟨old, value, here, entries⟩ := entries_rename? renamed
  have inside : i < next.entries.length := (List.getElem?_eq_some_iff.mp here).1
  have there : next.nth? i = some (symbol, value) := by
    rw [nth?, entries, List.getElem?_set_self inside]
  rw [there] at other
  exact other rfl

theorem modifyValue_ne {r : Rules} {i : Nat} {value : String} {change : String → String}
    (here : r.value? i = some value) (differs : change value ≠ value) :
    r.modifyValue i change ≠ r := by
  intro same
  obtain ⟨e, found, rfl⟩ := Option.map_eq_some_iff.mp here
  have inside : i < r.entries.length := (List.getElem?_eq_some_iff.mp found).1
  have there : r.nth? i = some (e.1, change e.2) := by
    rw [← same, nth?, entries_modifyValue found change, List.getElem?_set_self inside]
  rw [found] at there
  exact differs (congrArg Prod.snd (Option.some.inj there)).symm

end Rules

namespace Fractal

/-- An edit of a fractal's name, seed or rules. -/
inductive Edit where
  | pushName (c : Char)
  | popName
  | pushSeed (c : Char)
  | popSeed
  | openRule
  | dropPending
  | renameRule (i : Nat) (symbol : Char)
  | pushValue (i : Nat) (c : Char)
  | popValue (i : Nat)

/-- The fractal after an edit, or `none` when it is refused. -/
def edit? (f : Fractal) : Edit → Option Fractal
  | .pushName c => some (f.pushName c)
  | .popName => f.popName?
  | .pushSeed c => some (f.pushSeed c)
  | .popSeed => f.popSeed?
  | .openRule => f.openRule?
  | .dropPending => f.dropPending?
  | .renameRule i symbol => f.renameRule? i symbol
  | .pushValue i c => f.pushValue? i c
  | .popValue i => f.popValue? i

def perform (f : Fractal) (edit : Edit) : Fractal := (f.edit? edit).getD f

def run (f : Fractal) (edits : List Edit) : Fractal := edits.foldl perform f

/-- Whether the edit gives a rule the symbol that it has. -/
def KeepsSymbol (f : Fractal) : Edit → Prop
  | .renameRule i symbol => (f.rules.nth? i).map Prod.fst = some symbol
  | _ => False

def SameContent (f next : Fractal) : Prop :=
  next.name = f.name ∧ next.seed = f.seed ∧ next.rules = f.rules

instance (f next : Fractal) : Decidable (f.SameContent next) :=
  inferInstanceAs (Decidable (_ ∧ _ ∧ _))

/-- The content was changed, and the change was counted. -/
structure Changed (f next : Fractal) : Prop where
  content : ¬ f.SameContent next
  revision : next.revision = f.revision + 1

theorem changed_name {f : Fractal} {name : String} (other : name ≠ f.name) :
    f.Changed (edited { f with name }) :=
  ⟨fun same => other same.1, rfl⟩

theorem changed_seed {f : Fractal} {seed : String} (other : seed ≠ f.seed) :
    f.Changed (edited { f with seed }) :=
  ⟨fun same => other same.2.1, rfl⟩

theorem changed_rules {f : Fractal} {rules : Rules} (other : rules ≠ f.rules) :
    f.Changed (edited { f with rules }) :=
  ⟨fun same => other same.2.2, rfl⟩

theorem changed_popName {f next : Fractal} (popped : f.popName? = some next) : f.Changed next := by
  obtain ⟨name, dropped, rfl⟩ := Option.map_eq_some_iff.mp popped
  exact changed_name (dropLast?_ne dropped)

theorem changed_popSeed {f next : Fractal} (popped : f.popSeed? = some next) : f.Changed next := by
  obtain ⟨seed, dropped, rfl⟩ := Option.map_eq_some_iff.mp popped
  exact changed_seed (dropLast?_ne dropped)

theorem changed_openRule {f next : Fractal} (opened : f.openRule? = some next) :
    f.Changed next := by
  obtain ⟨rules, appended, rfl⟩ := Option.map_eq_some_iff.mp opened
  exact changed_rules (Rules.append?_ne appended)

theorem changed_dropPending {f next : Fractal} (dropped : f.dropPending? = some next) :
    f.Changed next := by
  unfold dropPending? at dropped
  split at dropped
  · next pending =>
    cases dropped
    exact changed_rules (Rules.erase_pending_ne pending)
  · contradiction

theorem changed_pushValue {f next : Fractal} {i : Nat} {c : Char}
    (pushed : f.pushValue? i c = some next) : f.Changed next := by
  obtain ⟨value, here, rfl⟩ := Option.map_eq_some_iff.mp pushed
  exact changed_rules (Rules.modifyValue_ne here (push_ne value c))

theorem changed_popValue {f next : Fractal} {i : Nat} (popped : f.popValue? i = some next) :
    f.Changed next := by
  obtain ⟨shorter, found, rfl⟩ := Option.map_eq_some_iff.mp popped
  obtain ⟨value, here, dropped⟩ := Option.bind_eq_some_iff.mp found
  exact changed_rules (Rules.modifyValue_ne here (dropLast?_ne dropped))

theorem renameRule_cases {f next : Fractal} {i : Nat} {symbol : Char}
    (renamed : f.renameRule? i symbol = some next) :
    f.KeepsSymbol (.renameRule i symbol) ∧ next = f ∨
      ¬ f.KeepsSymbol (.renameRule i symbol) ∧ f.Changed next := by
  obtain ⟨rules, given, rfl⟩ := Option.map_eq_some_iff.mp renamed
  split
  · next keeps => exact .inl ⟨keeps, rfl⟩
  · next other => exact .inr ⟨other, changed_rules (Rules.rename?_ne given other)⟩

/-- An accepted edit changes the content, unless it gives a rule its own symbol, which changes
nothing at all. -/
theorem edit?_cases {f next : Fractal} {edit : Edit} (made : f.edit? edit = some next) :
    f.KeepsSymbol edit ∧ next = f ∨ ¬ f.KeepsSymbol edit ∧ f.Changed next := by
  cases edit with
  | pushName c =>
    cases made
    exact .inr ⟨id, changed_name (push_ne f.name c)⟩
  | popName => exact .inr ⟨id, changed_popName made⟩
  | pushSeed c =>
    cases made
    exact .inr ⟨id, changed_seed (push_ne f.seed c)⟩
  | popSeed => exact .inr ⟨id, changed_popSeed made⟩
  | openRule => exact .inr ⟨id, changed_openRule made⟩
  | dropPending => exact .inr ⟨id, changed_dropPending made⟩
  | renameRule i symbol => exact renameRule_cases made
  | pushValue i c => exact .inr ⟨id, changed_pushValue made⟩
  | popValue i => exact .inr ⟨id, changed_popValue made⟩

/-- The revision is one higher if the content was changed, and the same if it was not. -/
structure Tracked (f next : Fractal) : Prop where
  same : f.SameContent next → next.revision = f.revision
  changed : ¬ f.SameContent next → next.revision = f.revision + 1

theorem Changed.tracked {f next : Fractal} (changed : f.Changed next) : f.Tracked next :=
  ⟨fun same => absurd same changed.content, fun _ => changed.revision⟩

theorem tracked_refl (f : Fractal) : f.Tracked f :=
  ⟨fun _ => rfl, fun differs => absurd ⟨rfl, rfl, rfl⟩ differs⟩

theorem perform_tracked (f : Fractal) (edit : Edit) : f.Tracked (f.perform edit) := by
  unfold perform
  cases made : f.edit? edit with
  | none => exact f.tracked_refl
  | some next =>
    obtain ⟨_, rfl⟩ | ⟨_, changed⟩ := edit?_cases made
    · exact next.tracked_refl
    · exact changed.tracked

/-- How many steps of a run lead to other content. -/
def changes (f : Fractal) : List Edit → Nat
  | [] => 0
  | edit :: edits =>
    let next := f.perform edit
    (if f.SameContent next then 0 else 1) + next.changes edits

theorem revision_run (f : Fractal) (edits : List Edit) :
    (f.run edits).revision = f.revision + .ofNat (f.changes edits) := by
  induction edits generalizing f with
  | nil => simp [run, changes]
  | cons edit edits ih =>
    have step := f.perform_tracked edit
    change ((f.perform edit).run edits).revision = _
    rw [ih, changes]
    by_cases same : f.SameContent (f.perform edit)
    · rw [step.same same, if_pos same, Nat.zero_add]
    · rw [step.changed same, if_neg same, UInt64.ofNat_add, UInt64.add_assoc]
      rfl

/-- Over any run of edits the revision counts, modulo 2^64, the steps that changed the content, and
so does each further step. A refused edit leaves the fractal as it was, and an accepted one changes
the content unless it keeps a rule's symbol. -/
theorem run_counts_changes (f : Fractal) (edits : List Edit) :
    let now := f.run edits
    now.revision = f.revision + .ofNat (f.changes edits) ∧
    ∀ edit, now.Tracked (now.perform edit) ∧
      (now.edit? edit = none → now.perform edit = now) ∧
      ∀ next, now.edit? edit = some next → now.perform edit = next ∧
        (now.KeepsSymbol edit → next = now) ∧
        (¬ now.KeepsSymbol edit → ¬ now.SameContent next) := by
  intro now
  refine ⟨f.revision_run edits, fun edit => ⟨now.perform_tracked edit, ?_, ?_⟩⟩
  · intro refused
    rw [perform, refused, Option.getD_none]
  · intro next made
    refine ⟨by rw [perform, made, Option.getD_some], ?_⟩
    obtain ⟨keeps, same⟩ | ⟨other, changed⟩ := edit?_cases made
    · exact ⟨fun _ => same, fun other => absurd keeps other⟩
    · exact ⟨fun keeps => absurd keeps other, fun _ => changed.content⟩

/-- The dragon curve at its last revision: one rule gets the symbol that it has, and is refused that
of the other one; with one more letter in its name the counter is at zero. -/
theorem last_run_counts_changes :
    let f : Fractal := ⟨"Smok", "F", 90, .ofPairs [('F', "F+G"), ('G', "F-G")], 18446744073709551615⟩
    let now := f.run [.renameRule 0 'F', .renameRule 0 'G', .pushName 'A']
    now.revision = 0 ∧ ¬ now.SameContent (now.perform (.popValue 1)) := by
  intro f now
  obtain ⟨counted, steps⟩ := f.run_counts_changes [.renameRule 0 'F', .renameRule 0 'G', .pushName 'A']
  refine ⟨counted.trans (by decide), ?_⟩
  obtain ⟨_, _, accepted⟩ := steps (.popValue 1)
  obtain ⟨next, made⟩ : ∃ next, now.edit? (.popValue 1) = some next :=
    Option.isSome_iff_exists.mp (by decide)
  obtain ⟨performed, _, changed⟩ := accepted next made
  exact performed ▸ changed id

end Fractal

end LSystem
