import LSystem.Proofs.Expansion
import LSystem.Turtle
import Mathlib.Data.List.Infix

/-! Branches. When the seed and all replacements close what they open, so does every generation,
and the turtle always finds what it returns to. The number of open branches carries both halves:
a balanced word leaves it as it was, and it is the number of poses that the turtle has saved. -/

namespace LSystem

/-- Each `]` closes a `[` in front of it, and none stays open. Other symbols do not count. -/
def Balanced (word : List Char) : Prop :=
  (∀ front, front <+: word → front.count ']' ≤ front.count '[') ∧ word.count '[' = word.count ']'

instance : DecidablePred Balanced := fun word =>
  decidable_of_iff ((∀ front ∈ word.inits, front.count ']' ≤ front.count '[') ∧
      word.count '[' = word.count ']') <| by
    simp only [Balanced, List.mem_inits]

/-- The number of open branches behind a symbol; `none` when it closes nothing. -/
def opened (depth : Nat) (symbol : Char) : Option Nat :=
  if symbol = '[' then some (depth + 1)
  else if symbol = ']' then if depth = 0 then none else some (depth - 1)
  else some depth

def openedAll (depth : Nat) (word : List Char) : Option Nat := word.foldlM opened depth

theorem openedAll_cons (depth : Nat) (symbol : Char) (word : List Char) :
    openedAll depth (symbol :: word) = (opened depth symbol).bind (openedAll · word) :=
  List.foldlM_cons

theorem openedAll_append (depth : Nat) (u v : List Char) :
    openedAll depth (u ++ v) = (openedAll depth u).bind (openedAll · v) :=
  List.foldlM_append

theorem openedAll_singleton (depth : Nat) (symbol : Char) :
    openedAll depth [symbol] = opened depth symbol := by
  rw [openedAll_cons]
  exact Option.bind_fun_some _

theorem opened_eq {depth : Nat} {symbol : Char}
    (closes : [symbol].count ']' ≤ depth + [symbol].count '[') :
    opened depth symbol = some (depth + [symbol].count '[' - [symbol].count ']') := by
  unfold opened
  split
  · next opens =>
    subst opens
    rfl
  · next other =>
    split
    · next shuts =>
      subst shuts
      have held : depth ≠ 0 := Nat.ne_zero_of_lt closes
      rw [if_neg held]
      rfl
    · next inner =>
      have neither : [symbol].count '[' = 0 ∧ [symbol].count ']' = 0 := by simp [other, inner]
      rw [neither.1, neither.2]
      rfl

theorem openedAll_of_prefixes {word : List Char} {depth : Nat}
    (closes : ∀ front, front <+: word → front.count ']' ≤ depth + front.count '[') :
    openedAll depth word = some (depth + word.count '[' - word.count ']') := by
  induction word generalizing depth with
  | nil => rfl
  | cons symbol word ih =>
    have parts : ∀ (c : Char) (rest : List Char),
        (symbol :: rest).count c = [symbol].count c + rest.count c := by
      intro c rest
      rw [← List.count_append, List.singleton_append]
    have begins : ∀ front, front <+: word → [symbol].count ']' + front.count ']' ≤
        depth + ([symbol].count '[' + front.count '[') := by
      intro front inside
      rw [← parts, ← parts]
      exact closes _ (List.cons_prefix_cons.mpr ⟨rfl, inside⟩)
    have first : [symbol].count ']' ≤ depth + [symbol].count '[' := begins [] List.nil_prefix
    have whole := begins word (List.prefix_refl word)
    rw [openedAll_cons, opened_eq first, Option.bind_some, ih, parts '[' word, parts ']' word]
    · congr 1
      omega
    · intro front inside
      have bound := begins front inside
      omega

theorem Balanced.openedAll_eq {word : List Char} (balanced : Balanced word) (depth : Nat) :
    openedAll depth word = some depth := by
  obtain ⟨closes, even⟩ := balanced
  rw [openedAll_of_prefixes, even, Nat.add_sub_cancel]
  intro front begins
  exact Nat.le_trans (closes front begins) (Nat.le_add_left ..)

/-- Substitution keeps what is open, when each symbol's image opens and closes what the symbol
does. -/
theorem openedAll_flatMap {image : Char → List Char}
    (like : ∀ depth symbol, openedAll depth (image symbol) = opened depth symbol) (depth : Nat)
    (word : List Char) : openedAll depth (word.flatMap image) = openedAll depth word := by
  induction word generalizing depth with
  | nil => rfl
  | cons symbol word ih =>
    rw [List.flatMap_cons, openedAll_append, openedAll_cons, like]
    congr 1
    funext next
    exact ih next

namespace Rules

/-- All replacements close what they open, and no bracket is replaced. -/
structure Branching (r : Rules) : Prop where
  balanced : ∀ e ∈ r.committed.entries, Balanced e.2.toList
  opening : '[' ∉ r.committed.symbols
  closing : ']' ∉ r.committed.symbols

theorem Branching.openedAll_image {r : Rules} (branching : r.Branching) (depth : Nat)
    (symbol : Char) :
    openedAll depth ((Table.ofRules r).image symbol).toList = opened depth symbol := by
  cases found : r.committed.get? symbol with
  | none =>
    rw [Table.image, Table.get?_ofRules, found, Option.getD_none, Char.toString,
      String.toList_singleton, openedAll_singleton]
  | some value =>
    have mem := mem_of_get? found
    have replaced : symbol ∈ r.committed.symbols := List.mem_map.mpr ⟨_, mem, rfl⟩
    have opens : symbol ≠ '[' := fun same => branching.opening (same ▸ replaced)
    have shuts : symbol ≠ ']' := fun same => branching.closing (same ▸ replaced)
    rw [Table.image, Table.get?_ofRules, found, Option.getD_some,
      (branching.balanced _ mem).openedAll_eq, opened, if_neg opens, if_neg shuts]

theorem Branching.openedAll_expand {r : Rules} (branching : r.Branching) (seed : String)
    (n depth : Nat) : openedAll depth (expand seed r n).toList = openedAll depth seed.toList := by
  unfold expand
  induction n generalizing seed with
  | zero => rfl
  | succ n ih =>
    rw [Table.after, ih, Table.next_eq, String.toList_ofList]
    exact openedAll_flatMap branching.openedAll_image depth seed.toList

end Rules

namespace Turtle

theorem obey_opened {g : Gait} {t : Turtle} {symbol : Char} {depth : Nat}
    (opens : opened t.depth symbol = some depth) :
    (obey g t symbol).1.depth = depth ∧ (obey g t symbol).1.underflows = t.underflows := by
  unfold obey
  split
  · exact ⟨Option.some.inj opens, rfl⟩
  · exact ⟨Option.some.inj opens, rfl⟩
  · exact ⟨Option.some.inj opens, rfl⟩
  · split
    · next pose rest saved =>
      have size : t.depth = rest.length + 1 := congrArg List.length saved
      rw [size] at opens
      exact ⟨Option.some.inj opens, rfl⟩
    · next saved =>
      have size : t.depth = 0 := congrArg List.length saved
      rw [size] at opens
      contradiction
  · next other inner =>
    rw [opened, if_neg other, if_neg inner] at opens
    exact ⟨Option.some.inj opens, rfl⟩

theorem trace_opened {g : Gait} {t : Turtle} {word : List Char} {depth : Nat}
    (opens : openedAll t.depth word = some depth) :
    (trace g t word).2.depth = depth ∧ (trace g t word).2.underflows = t.underflows := by
  induction word generalizing t with
  | nil => exact ⟨Option.some.inj opens, rfl⟩
  | cons symbol word ih =>
    rw [openedAll_cons] at opens
    obtain ⟨next, first, rest⟩ := Option.bind_eq_some_iff.mp opens
    obtain ⟨moved, kept⟩ := obey_opened (g := g) first
    rw [← moved] at rest
    obtain ⟨reached, same⟩ := ih rest
    exact ⟨reached, same.trans kept⟩

/-- With balanced replacements for symbols other than brackets, each generation of a balanced seed
is walked without a return that finds nothing saved, and nothing is left saved at its end. -/
theorem walk_expand_returns (seed : String) (rules : Rules) (balanced : Balanced seed.toList)
    (branching : rules.Branching) (n : Nat) (g : Gait) (pose : Pose) {β : Type}
    (use : β → Segment Float → β) (init : β) :
    (∀ front behind : String, front ++ behind = expand seed rules n →
      (walk g use (.start pose) init front).1.underflows = 0) ∧
    (walk g use (.start pose) init (expand seed rules n)).1.depth = 0 := by
  have whole : openedAll (start pose).depth (expand seed rules n).toList = some 0 := by
    rw [branching.openedAll_expand]
    exact balanced.openedAll_eq 0
  constructor
  · intro front behind parts
    rw [← parts, String.toList_append, openedAll_append] at whole
    obtain ⟨_, reached, _⟩ := Option.bind_eq_some_iff.mp whole
    rw [walk_eq_foldl_trace]
    exact (trace_opened reached).2
  · rw [walk_eq_foldl_trace]
    exact (trace_opened whole).1

/-- A plant, whose branches hold branches, in every generation. -/
theorem plant_walk_returns :
    let rules := Rules.ofPairs [('X', "F+[[X]-X]-F[-FX]+X)"), ('F', "FF")]
    Balanced "X".toList ∧ rules.Branching ∧
      ∀ n, (walk { turn := 25, length := 2 } (fun strokes _ => strokes + 1)
        (.start { position := { x := 0, y := 0 }, heading := 0 }) 0 (expand "X" rules n)).1.depth =
          0 := by
  intro rules
  have entries : rules.committed.entries = [('X', "F+[[X]-X]-F[-FX]+X)"), ('F', "FF")] := by decide
  have balanced : Balanced "X".toList := by decide
  have branching : rules.Branching := by
    refine ⟨?_, by decide, by decide⟩
    intro e mem
    rw [entries] at mem
    rcases List.mem_cons.mp mem with rfl | mem
    · decide
    · rw [List.mem_singleton.mp mem]
      decide
  exact ⟨balanced, branching, fun n =>
    (walk_expand_returns "X" rules balanced branching n _ _ _ _).2⟩

end Turtle

end LSystem
