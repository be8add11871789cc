import LSystem.Proofs.Terminal.Drawing

/-! The painter keeps a display in step with the frames that it is given, whatever their sizes and
however often it is told to forget. -/

namespace LSystem.Terminal

def Frame.single (row : List Cell) : Frame where
  width := row.length
  height := 1
  rows := [row]
  length_rows := rfl
  length_row := by simp

namespace Display

/-- The display shows a frame, with blanks around it. -/
def Shows (d : Display) (f : Frame) : Prop := ∀ y, d.rows y = picture (rowAt f.rows y)

theorem length_rowAt (f : Frame) (y : Nat) :
    (rowAt f.rows y).length = if y < f.height then f.width else 0 := by
  unfold rowAt
  by_cases inside : y < f.rows.length
  · have found : f.rows[y]? = some f.rows[y] := List.getElem?_eq_getElem inside
    rw [found, Option.getD_some, f.length_row _ (List.getElem_mem inside),
      if_pos (f.length_rows ▸ inside)]
  · have none : f.rows[y]? = none := List.getElem?_eq_none (Nat.le_of_not_lt inside)
    rw [none, if_neg (f.length_rows ▸ inside)]
    rfl

theorem getElem?_rowAt {f : Frame} {x y : Nat} {cell : Cell} (found : f.get? x y = some cell) :
    (rowAt f.rows y)[x]? = some cell := by
  obtain ⟨row, there, here⟩ := Option.bind_eq_some_iff.mp found
  have same : rowAt f.rows y = row := by
    rw [rowAt, ← Frame.row?, there]
    rfl
  rw [same, here]

theorem size_of_get? {f : Frame} {x y : Nat} {cell : Cell} (found : f.get? x y = some cell) :
    f.width ≠ 0 ∧ f.height ≠ 0 := by
  obtain ⟨inside, _⟩ := List.getElem?_eq_some_iff.mp (getElem?_rowAt found)
  rw [length_rowAt] at inside
  split at inside <;> omega

theorem Shows.get? {d : Display} {f : Frame} (shows : d.Shows f) {x y : Nat} {cell : Cell}
    (found : f.get? x y = some cell) : d.rows y x = cell.shown := by
  rw [shows y, picture, getElem?_rowAt found]
  rfl

/-- A frame of the size of `f` that is shown already. -/
structure Base (d : Display) (f g : Frame) : Prop where
  wellFormed : g.WellFormed
  width : g.width = f.width
  height : g.height = f.height
  shows : d.Shows g

/-- The display shows the rows that the changes to a frame start from. -/
structure Opened (old : List (List Cell)) (f : Frame) (d : Display) : Prop where
  idle : d.reading = .text
  bare : d.style = .plain
  whole : ∀ row ∈ old, Tiled row
  fits : ∀ y, (rowAt old y).length ≤ (rowAt f.rows y).length
  shows : ∀ y, d.rows y = picture (rowAt old y)

/-- Without a frame to start from the screen is cleared. -/
theorem start_opened {d : Display} (idle : d.reading = .text) (bare : d.style = .plain)
    {old : Option Frame} {f : Frame} (base : ∀ g, old = some g → d.Base f g) :
    Opened ((old.map Frame.rows).getD []) f
      (d.run (if old.isNone then [.clearScreen, .moveTo 0 0] else [])) := by
  cases old with
  | none =>
    have cleared : d.run [.clearScreen, .moveTo 0 0] =
        { d with rows := fun _ _ => .empty, x := 0, y := 0 } := by
      rw [run_cons, run_singleton, read_clearScreen idle]
      exact read_moveTo (d := { d with rows := fun _ _ => .empty }) idle 0 0
    refine ⟨?_, ?_, nofun, fun y => ?_, fun y => ?_⟩
    · exact cleared ▸ idle
    · exact cleared ▸ bare
    · exact Nat.zero_le _
    · exact cleared ▸ rfl
  | some g =>
    obtain ⟨wellFormed, width, height, shows⟩ := base g rfl
    refine ⟨idle, bare, wellFormed, fun y => Nat.le_of_eq ?_, shows⟩
    rw [Option.map_some, Option.getD_some, length_rowAt, length_rowAt, width, height]

theorem run_update {d : Display} (idle : d.reading = .text) (bare : d.style = .plain)
    {old : Option Frame} {f : Frame} (wellFormed : f.WellFormed)
    (base : ∀ g, old = some g → d.Base f g) :
    (d.run (update old f)).reading = .text ∧ (d.run (update old f)).style = .plain ∧
      (d.run (update old f)).Shows f := by
  have begun : d.run [.beginSync] = d := by rw [run_singleton, read_beginSync idle]
  have opened := start_opened idle bare base
  generalize start : d.run (if old.isNone then [.clearScreen, .moveTo 0 0] else []) = d' at opened
  have shows : ∀ y, d'.rows (0 + y) = picture (rowAt ((old.map Frame.rows).getD []) y) := by
    intro y
    rw [Nat.zero_add]
    exact opened.shows y
  obtain ⟨idle, painted⟩ := ofRows_paints wellFormed (.fresh opened.idle opened.bare)
    opened.whole opened.fits shows
  have parts : update old f = [.beginSync] ++
      (if old.isNone then [.clearScreen, .moveTo 0 0] else []) ++
        Pen.fresh.writeAll (Changes.between old f).cells ++ [.resetAttrs] ++ [.endSync] := by
    simp [update]
  rw [parts, run_append, run_append, run_append, run_append, begun, start]
  change (d'.run (Pen.fresh.writeAll (Changes.between old f).cells)).reading = .text at idle
  change Painted _ _ _ (d'.run (Pen.fresh.writeAll (Changes.between old f).cells)) at painted
  generalize d'.run (Pen.fresh.writeAll (Changes.between old f).cells) = d'' at idle painted
  have reset : d''.run [.resetAttrs] = { d'' with style := .plain } := by
    rw [run_singleton, read_resetAttrs idle]
  rw [reset, run_singleton, read_endSync (d := { d'' with style := .plain }) idle]
  refine ⟨idle, rfl, fun y => ?_⟩
  have row := painted.rows y
  rw [Nat.zero_add] at row
  exact row

end Display

namespace Painter

/-- A painter is given the next frame, or told to forget the last. -/
inductive Call where
  | render (f : Frame)
  | forget

/-- Performs a call. What is put out is taken to the terminal. -/
def Call.perform : Painter × Display → Call → Painter × Display
  | (p, d), render f =>
    let (p, output) := (p.render f).1.flush
    (p, d.receive (Text.Utf8.encode output.toList))
  | (p, d), forget => (p.forget, d)

def performAll (start : Painter × Display) (calls : List Call) : Painter × Display :=
  calls.foldl Call.perform start

/-- What a painter remembers to have shown is shown. A frame without cells is not. -/
structure Synced (p : Painter) (d : Display) : Prop where
  idle : d.reading = .text
  bare : d.style = .plain
  shows : ∀ g, p.shown = some g → g.WellFormed ∧ (g.width ≠ 0 → g.height ≠ 0 → d.Shows g)

theorem Synced.base {p : Painter} {d : Display} (synced : Synced p d) {f g : Frame}
    (cells : ¬ (f.width = 0 ∨ f.height = 0)) (base : p.base? f = some g) : d.Base f g := by
  simp only [Painter.base?, Option.filter_eq_some_iff, Bool.and_eq_true, beq_iff_eq] at base
  obtain ⟨shown, width, height⟩ := base
  obtain ⟨wellFormed, shows⟩ := synced.shows g shown
  refine ⟨wellFormed, width, height, shows ?_ ?_⟩
  · exact width ▸ fun none => cells (.inl none)
  · exact height ▸ fun none => cells (.inr none)

theorem render_synced {p : Painter} {d : Display} (synced : Synced p d) {f : Frame}
    (wellFormed : f.WellFormed) :
    Synced (Call.perform (p, d) (.render f)).1 (Call.perform (p, d) (.render f)).2 := by
  have taken : Call.perform (p, d) (.render f) =
      ({ (p.render f).1 with output := "" }, d.read (p.render f).1.output.toList) := by
    rw [← Display.receive_encode]
    rfl
  rw [taken]
  unfold Painter.render
  split
  · next none =>
    refine ⟨synced.idle, synced.bare, fun g same => ?_⟩
    cases same
    refine ⟨wellFormed, fun width height => ?_⟩
    exact absurd none (not_or.mpr ⟨width, height⟩)
  · next cells =>
    obtain ⟨idle, bare, shows⟩ := Display.run_update synced.idle synced.bare wellFormed
      fun g base => synced.base cells base
    refine ⟨idle, bare, fun g same => ?_⟩
    cases same
    exact ⟨wellFormed, fun _ _ => shows⟩

theorem perform_synced {p : Painter} {d : Display} (synced : Synced p d) (call : Call)
    (wellFormed : ∀ f, call = .render f → f.WellFormed) :
    Synced (call.perform (p, d)).1 (call.perform (p, d)).2 := by
  cases call with
  | render f => exact render_synced synced (wellFormed f rfl)
  | forget => exact ⟨synced.idle, synced.bare, nofun⟩

theorem performAll_synced {p : Painter} {d : Display} (synced : Synced p d) (calls : List Call)
    (wellFormed : ∀ f, .render f ∈ calls → f.WellFormed) :
    Synced (performAll (p, d) calls).1 (performAll (p, d) calls).2 := by
  induction calls generalizing p d with
  | nil => exact synced
  | cons call calls ih =>
    have first := perform_synced synced call fun f same => wellFormed f (same ▸ List.mem_cons_self)
    exact ih first fun f mem => wellFormed f (List.mem_cons_of_mem _ mem)

/-- Performs a call. What is put out is sent behind what has been sent before. -/
def Call.send : Painter × String → Call → Painter × String
  | (p, sent), render f =>
    let (p, output) := (p.render f).1.flush
    (p, sent ++ output)
  | (p, sent), forget => (p.forget, sent)

def sendAll (start : Painter × String) (calls : List Call) : Painter × String :=
  calls.foldl Call.send start

theorem sendAll_append (start : Painter × String) (calls more : List Call) :
    sendAll start (calls ++ more) = sendAll (sendAll start calls) more :=
  List.foldl_append

/-- A terminal that receives all that is sent is what it is if it receives the output of one call
after the other. -/
theorem performAll_receive (p : Painter) (d : Display) (sent : String) (calls : List Call) :
    performAll (p, d.receive (Text.Utf8.encode sent.toList)) calls =
      ((sendAll (p, sent) calls).1,
        d.receive (Text.Utf8.encode (sendAll (p, sent) calls).2.toList)) := by
  induction calls generalizing p sent with
  | nil => rfl
  | cons call calls ih =>
    cases call with
    | forget => exact ih p.forget sent
    | render f =>
      let output := (p.render f).1.output
      have received : (d.receive (Text.Utf8.encode sent.toList)).receive
          (Text.Utf8.encode output.toList) =
            d.receive (Text.Utf8.encode (sent ++ output).toList) := by
        simp only [Display.receive_encode, String.toList_append, Display.read_append]
      have rest := ih { (p.render f).1 with output := "" } (sent ++ output)
      rw [← received] at rest
      exact rest

/-- A new painter has rendered `frames`, the last of them `now`, and has sent `sent` for them. -/
structure Rendered (p : Painter) (sent : String) (frames : List Frame) (now : Frame) : Prop where
  last : frames.getLast? = some now
  sends : sendAll (.fresh, "") (frames.map .render) = (p, sent)

section Rendered

variable {p : Painter} {sent : String} {frames : List Frame} {now : Frame}

theorem Rendered.shown (rendered : p.Rendered sent frames now) : p.shown = some now := by
  obtain ⟨last, sends⟩ := rendered
  obtain ⟨earlier, rfl⟩ := List.getLast?_eq_some_iff.mp last
  rw [List.map_append, sendAll_append] at sends
  have painter : p = (Call.send (sendAll (.fresh, "") (earlier.map .render)) (.render now)).1 :=
    (congrArg Prod.fst sends).symm
  rw [painter]
  exact render_shown _ now

/-- Any terminal that has received what was sent shows the last of the frames. -/
theorem Rendered.shows (rendered : p.Rendered sent frames now)
    (wellFormed : ∀ f ∈ frames, f.WellFormed) (width : now.width ≠ 0) (height : now.height ≠ 0)
    {d : Display} (idle : d.reading = .text) (bare : d.style = .plain) :
    (d.receive (Text.Utf8.encode sent.toList)).Shows now := by
  have whole : ∀ f, .render f ∈ frames.map Call.render → f.WellFormed := by
    intro f mem
    obtain ⟨_, there, same⟩ := List.mem_map.mp mem
    cases same
    exact wellFormed f there
  have start : Synced .fresh d := ⟨idle, bare, nofun⟩
  have synced := performAll_synced start _ whole
  have nothing : d.receive (Text.Utf8.encode "".toList) = d := Display.receive_encode d []
  have performed := performAll_receive .fresh d "" (frames.map .render)
  rw [nothing, rendered.sends] at performed
  rw [performed] at synced
  exact (synced.shows now rendered.shown).2 width height

end Rendered

/-- After any calls a frame that is rendered is shown, whatever was on the screen before the first
of them. -/
theorem performAll_render_shows (rows : Nat → Nat → Cell) (x₀ y₀ : Nat) (calls : List Call)
    (f : Frame) (wellFormed : ∀ g, .render g ∈ calls ++ [.render f] → g.WellFormed) (x y : Nat)
    (cell : Cell) (found : f.get? x y = some cell) :
    (performAll (.fresh, ⟨rows, x₀, y₀, .plain, .text⟩) (calls ++ [.render f])).2.rows y x =
      cell.shown := by
  have start : Synced .fresh ⟨rows, x₀, y₀, .plain, .text⟩ := ⟨rfl, rfl, nofun⟩
  have synced := performAll_synced start (calls ++ [.render f]) wellFormed
  have shown : (performAll (.fresh, ⟨rows, x₀, y₀, .plain, .text⟩) (calls ++ [.render f])).1.shown =
      some f := by
    rw [performAll, List.foldl_append]
    exact render_shown _ f
  obtain ⟨width, height⟩ := Display.size_of_get? found
  exact ((synced.shows f shown).2 width height).get? found

/-- A wide character moves by one column, onto half of where it was. -/
theorem performAll_shift_shows :
    let left : Frame := .single [⟨some '界', .bold⟩, .continuation .bold, .empty]
    let right : Frame := .single [.empty, ⟨some '界', .bold⟩, .continuation .bold]
    let start : Painter × Display := (.fresh, ⟨fun _ _ => .empty, 0, 0, .plain, .text⟩)
    (∀ g, Call.render g ∈ [.render left] ++ [.render right] → g.WellFormed) ∧
      right.get? 1 0 = some ⟨some '界', .bold⟩ ∧
        (performAll start ([.render left] ++ [.render right])).2.rows 0 1 =
          Cell.shown ⟨some '界', .bold⟩ := by
  intro left right start
  have wide : Text.columns '界' = 2 := by decide +kernel
  have wellFormed : ∀ g, Call.render g ∈ [.render left] ++ [.render right] → g.WellFormed := by
    intro g mem row inside
    rcases List.mem_cons.mp mem with same | mem
    · cases same
      rw [List.mem_singleton.mp inside]
      exact .wide .bold wide (.narrow .plain rfl .nil)
    · cases List.mem_singleton.mp mem
      rw [List.mem_singleton.mp inside]
      exact .narrow .plain rfl (.wide .bold wide .nil)
  exact ⟨wellFormed, rfl, performAll_render_shows _ 0 0 _ _ wellFormed 1 0 _ rfl⟩

end Painter
end LSystem.Terminal
