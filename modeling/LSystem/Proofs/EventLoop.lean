import LSystem.Proofs.Terminal.Chunks
import LSystem.Proofs.Terminal.Repaint
import LSystem.Viewer

/-! What the loop does for an application does not depend on how its input was cut: it hands over
the events of all the bytes, in order, up to the one at which the application quits. And whenever
it waits, what it has sent ends in the frame of the present state, and a terminal that has received
it shows that frame. -/

namespace LSystem.Terminal

variable {σ : Type}

namespace App

theorem deliver_quit {app : App σ} {s next : σ} {e : Event}
    (quits : app.respond s e = (next, true)) (events : List Event) :
    app.deliver s (e :: events) = (next, true) := by
  simp only [deliver, quits]

theorem deliver_on {app : App σ} {s next : σ} {e : Event}
    (goes : app.respond s e = (next, false)) (events : List Event) :
    app.deliver s (e :: events) = app.deliver next events := by
  simp only [deliver, goes]

/-- An event at which the application always quits is not survived. -/
theorem deliver_quits {app : App σ} {e : Event} {events : List Event} (mem : e ∈ events)
    (quits : ∀ s, (app.respond s e).2 = true) (s : σ) : (app.deliver s events).2 = true := by
  induction events generalizing s with
  | nil => contradiction
  | cons first events ih =>
    cases responds : app.respond s first with
    | mk next quit =>
      cases quit with
      | true => rw [deliver_quit responds]
      | false =>
        rw [deliver_on responds]
        cases mem with
        | head =>
          have quit := quits s
          rw [responds] at quit
          contradiction
        | tail _ mem => exact ih mem next

/-- Of `events` the application hears the first ones, up to and with the one at which it quits,
and all of them if it does not. -/
structure Hears (app : App σ) (s : σ) (events heard : List Event) : Prop where
  first : heard <+: events
  outcome : app.deliver s heard = app.deliver s events
  none_after : ∀ earlier, earlier <+: heard → (app.deliver s earlier).2 = true → earlier = heard
  all : (app.deliver s events).2 = false → heard = events

theorem Hears.nil (app : App σ) (s : σ) : app.Hears s [] [] where
  first := List.prefix_refl _
  outcome := rfl
  none_after _ first _ := List.prefix_nil.mp first
  all _ := rfl

theorem Hears.quit {app : App σ} {s next : σ} {e : Event} (quits : app.respond s e = (next, true))
    (events : List Event) : app.Hears s (e :: events) [e] where
  first := List.cons_prefix_cons.mpr ⟨rfl, List.nil_prefix⟩
  outcome := by rw [deliver_quit quits, deliver_quit quits]
  none_after earlier first quit := by
    cases earlier with
    | nil => contradiction
    | cons e' earlier =>
      obtain ⟨rfl, rest⟩ := List.cons_prefix_cons.mp first
      rw [List.prefix_nil.mp rest]
  all goes := by
    rw [deliver_quit quits] at goes
    contradiction

theorem Hears.cons {app : App σ} {s next : σ} {e : Event} {events heard : List Event}
    (goes : app.respond s e = (next, false)) (hears : app.Hears next events heard) :
    app.Hears s (e :: events) (e :: heard) where
  first := List.cons_prefix_cons.mpr ⟨rfl, hears.first⟩
  outcome := by rw [deliver_on goes, deliver_on goes, hears.outcome]
  none_after earlier first quit := by
    cases earlier with
    | nil => contradiction
    | cons e' earlier =>
      obtain ⟨rfl, rest⟩ := List.cons_prefix_cons.mp first
      rw [deliver_on goes] at quit
      rw [hears.none_after earlier rest quit]
  all still := by
    rw [deliver_on goes] at still
    rw [hears.all still]

end App

namespace Loop

variable {app : App σ}

theorem refresh_clean (app : App σ) (l : Loop σ) : (l.refresh app).1.dirty = false := by
  unfold refresh
  split
  · rfl
  · next clean => simpa using clean

theorem refresh_of_clean (app : App σ) {l : Loop σ} (clean : l.dirty = false) :
    l.refresh app = (l, "") := by
  rw [refresh, clean, if_neg Bool.false_ne_true]

theorem take_quit {l : Loop σ} {wait : Wait} {next : σ}
    (quits : app.deliver l.state (l.decoder.receive wait.arrival).1 = (next, true)) :
    l.take app wait =
      ({ l with state := next, decoder := (l.decoder.receive wait.arrival).2 }, true) := by
  simp only [take, quits]

/-- The loop after a wait at which the application goes on and the screen keeps its size. -/
def taken (l : Loop σ) (arrival : Arrival) (next : σ) : Loop σ :=
  { l with
    state := next
    decoder := (l.decoder.receive arrival).2
    dirty := l.dirty || !(l.decoder.receive arrival).1.isEmpty }

theorem take_on {l : Loop σ} {wait : Wait} {next : σ}
    (goes : app.deliver l.state (l.decoder.receive wait.arrival).1 = (next, false)) :
    l.take app wait =
      (wait.size.elim (l.taken wait.arrival next) ((l.taken wait.arrival next).resize app),
        false) := by
  simp only [take, goes, taken]

theorem run_on {l next : Loop σ} {wait : Wait}
    (goes : (l.refresh app).1.take app wait = (next, false)) (waits : List Wait) :
    l.run app (wait :: waits) =
      { next.run app waits with output := (l.refresh app).2 ++ (next.run app waits).output } := by
  simp only [run, goes]

/-- The loop has gone through `waits`, has sent `sent`, and waits again. -/
inductive Waiting (app : App σ) : Loop σ → List Wait → Loop σ → String → Prop where
  | now (l : Loop σ) : Waiting app l [] (l.refresh app).1 (l.refresh app).2
  | later {l next last : Loop σ} {wait : Wait} {waits : List Wait} {sent : String}
      (goes : (l.refresh app).1.take app wait = (next, false))
      (rest : Waiting app next waits last sent) :
      Waiting app l (wait :: waits) last ((l.refresh app).2 ++ sent)

/-- A run that has waited goes on from there. -/
theorem Waiting.run {l last : Loop σ} {waits : List Wait} {sent : String}
    (waiting : Waiting app l waits last sent) (rest : List Wait) :
    (l.run app (waits ++ rest)).loop = (last.run app rest).loop ∧
      (l.run app (waits ++ rest)).quit = (last.run app rest).quit ∧
      (l.run app (waits ++ rest)).output = sent ++ (last.run app rest).output := by
  induction waiting with
  | now l =>
    have idle := refresh_of_clean app (refresh_clean app l)
    cases rest with
    | nil => simp only [List.nil_append, Loop.run, idle, String.append_empty, and_self]
    | cons wait rest =>
      simp only [List.nil_append, Loop.run, idle]
      cases (l.refresh app).1.take app wait with
      | mk next quit => cases quit <;> simp
  | later goes _ ih =>
    obtain ⟨loop, quit, output⟩ := ih
    rw [List.cons_append, run_on goes, output, String.append_assoc]
    exact ⟨loop, quit, rfl⟩

/-- The screen has size `size`, and `sent` is what the painter has sent for `calls`. The last of
them has rendered the state if it is not marked as changed. -/
structure Current (app : App σ) (size : Size) (calls : List Painter.Call) (l : Loop σ)
    (sent : String) : Prop where
  fits : l.frame.size = size
  sends : Painter.sendAll (.fresh, "") calls = (l.painter, sent)
  shown : l.dirty = false →
    calls.getLast? = some (.render (app.paint l.state (.blank size.width size.height)))

theorem start_current (app : App σ) (s : σ) (size : Size) :
    Current app size [] (start app s size) "" where
  fits := rfl
  sends := rfl
  shown := nofun

variable {size : Size} {calls : List Painter.Call} {sent : String}

theorem Current.refresh {l : Loop σ} (current : Current app size calls l sent) :
    ∃ frames : List Frame, Current app size (calls ++ frames.map .render) (l.refresh app).1
      (sent ++ (l.refresh app).2) := by
  have blank : l.frame.clear = .blank size.width size.height := by
    rw [← current.fits]
    rfl
  unfold Loop.refresh
  split
  · refine ⟨[app.paint l.state l.frame.clear], ?_, ?_, fun _ => ?_⟩
    · exact (app.size_paint ..).trans (congrArg Frame.size blank)
    · rw [Painter.sendAll_append, current.sends]
      rfl
    · rw [blank]
      exact List.getLast?_concat
  · refine ⟨[], ?_⟩
    rw [List.map_nil, List.append_nil, String.append_empty]
    exact current

/-- Without an event the state stays as it was painted. A screen that gets another size is
forgotten. -/
theorem Current.take {l next : Loop σ} {wait : Wait} (current : Current app size calls l sent)
    (clean : l.dirty = false) (goes : l.take app wait = (next, false)) :
    Current app (wait.size.getD size) (calls ++ wait.size.elim [] fun _ => [.forget]) next
      sent := by
  cases delivered : app.deliver l.state (l.decoder.receive wait.arrival).1 with
  | mk s quit =>
    cases quit with
    | true =>
      rw [take_quit delivered] at goes
      cases goes
    | false =>
      rw [take_on delivered] at goes
      cases goes
      cases wait.size with
      | some size =>
        refine ⟨rfl, ?_, nofun⟩
        simp only [Option.elim_some, Painter.sendAll_append, current.sends]
        rfl
      | none =>
        rw [Option.elim_none, List.append_nil]
        refine ⟨current.fits, current.sends, fun quiet => ?_⟩
        have none : (l.decoder.receive wait.arrival).1 = [] := by
          simpa [taken, clean] using quiet
        rw [none] at delivered
        cases delivered
        exact current.shown clean

def sizeAfter (size : Size) (waits : List Wait) : Size :=
  waits.foldl (fun size wait => wait.size.getD size) size

theorem sizeAfter_bytes (size : Size) (pieces : List (List UInt8)) :
    sizeAfter size (pieces.map .bytes) = size := by
  induction pieces with
  | nil => rfl
  | cons piece pieces ih => exact ih

/-- Whenever the loop waits, what has been sent ends in a frame of its state. As long as the screen
keeps its size, frames are all that is sent. -/
theorem Waiting.current {l last : Loop σ} {waits : List Wait} {more : String}
    (waiting : Waiting app l waits last more) (current : Current app size calls l sent) :
    ∃ later, Current app (sizeAfter size waits) (calls ++ later) last (sent ++ more) ∧
      last.dirty = false ∧
      ((∀ wait ∈ waits, wait.size = none) → ∃ frames : List Frame, later = frames.map .render) := by
  induction waiting generalizing size calls sent with
  | now l =>
    obtain ⟨frames, shown⟩ := current.refresh
    exact ⟨_, shown, refresh_clean app l, fun _ => ⟨frames, rfl⟩⟩
  | @later l next last wait waits more goes _ ih =>
    obtain ⟨frames, shown⟩ := current.refresh
    obtain ⟨later, shown, clean, kept⟩ := ih (shown.take (refresh_clean app l) goes)
    rw [String.append_assoc, List.append_assoc, List.append_assoc] at shown
    refine ⟨_, shown, clean, fun keeps => ?_⟩
    obtain ⟨others, rfl⟩ := kept fun wait mem => keeps wait (List.mem_cons_of_mem _ mem)
    have same : wait.size = none := keeps wait List.mem_cons_self
    refine ⟨frames ++ others, ?_⟩
    rw [same, Option.elim_none, List.nil_append, List.map_append]

/-- When a loop waits for more of a file, the last frame rendered is that of its state. -/
theorem Waiting.rendered {s : σ} {last : Loop σ} {pieces : List (List UInt8)}
    (waiting : Waiting app (start app s size) (pieces.map .bytes) last sent) :
    ∃ frames, last.painter.Rendered sent frames
      (app.paint last.state (.blank size.width size.height)) := by
  obtain ⟨calls, current, clean, kept⟩ := waiting.current (start_current app s size)
  rw [sizeAfter_bytes, List.nil_append, String.empty_append] at current
  obtain ⟨frames, rfl⟩ : ∃ frames : List Frame, calls = frames.map .render := by
    refine kept fun wait mem => ?_
    obtain ⟨_, _, rfl⟩ := List.mem_map.mp mem
    rfl
  have shown := current.shown clean
  rw [List.getLast?_map] at shown
  obtain ⟨f, last, same⟩ := Option.map_eq_some_iff.mp shown
  cases same
  exact ⟨frames, last, current.sends⟩

end Loop

end LSystem.Terminal

namespace LSystem.Viewer

open Terminal

end LSystem.Viewer
