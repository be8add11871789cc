import LSystem.Proofs.CursorPlacement
import LSystem.Proofs.FrameLayers
import LSystem.Proofs.Pasting

/-! Where the row under the cursor is painted. The preview is cut from above, whatever the cursor is
on: its row stays as long as there is room for it and for the field rows below it. In a lower frame the
rows below push it out. -/

namespace LSystem

open Terminal

theorem Session.run_append (s : Session) (intents later : List Intent) :
    s.run (intents ++ later) = (s.run intents).run later := List.foldl_append

namespace Cursor

theorem length_preview (c : Cursor) (f : Fractal) :
    (c.preview f).length = previewRounds + 1 + (lastRow f + 1) := by
  rw [preview, List.length_append, List.length_map, List.length_range, length_fieldLines]

theorem preview_field (c : Cursor) (f : Fractal) (row : Nat) :
    (c.preview f)[previewRounds + 1 + row]? = (c.fieldLines f)[row]? := by
  rw [← c.fieldLines_of_preview f, List.getElem?_drop]

theorem head_fieldLines {c : Cursor} {f : Fractal} {row : Nat} {line : String}
    (shown : (c.fieldLines f)[row]? = some line) :
    line.toList.head? = some (if c.row = row then '>' else ' ') := by
  obtain ⟨text, rfl⟩ := c.fieldLines_row f row line shown
  unfold mark
  split <;> simp

end Cursor

namespace Viewer

theorem session_apply (v : Viewer) (i : Intent) : (v.apply i).session = (v.session.apply i).1 := by
  simp only [apply]
  split <;> rfl

theorem session_appendAll (v : Viewer) (text : List Char) :
    (v.appendAll text).session = v.session.run (text.map .append) := by
  induction text generalizing v with
  | nil => rfl
  | cons ch text ih =>
    have rest := ih (v.apply (.append ch))
    rw [session_apply] at rest
    exact rest

theorem session_respond (v : Viewer) (e : Event) :
    ∃ intents, (v.respond e).1.session = v.session.run intents := by
  cases e with
  | paste text =>
    simp only [respond, paste]
    split
    · exact ⟨[], rfl⟩
    · exact ⟨_, v.session_appendAll _⟩
  | key k m =>
    simp only [respond]
    split
    · next i _ => exact ⟨[i], v.session_apply i⟩
    · next i _ => exact ⟨[i], v.session_apply i⟩
    · exact ⟨[], rfl⟩
    · exact ⟨[], rfl⟩
    · exact ⟨[], rfl⟩

/-- All that the user can do to the session is to ask for intents. -/
theorem session_respondAll (v : Viewer) (events : List Event) :
    ∃ intents, (v.respondAll events).1.session = v.session.run intents := by
  induction events generalizing v with
  | nil => exact ⟨[], rfl⟩
  | cons e events ih =>
    obtain ⟨intents, first⟩ := v.session_respond e
    cases responds : v.respond e with
    | mk next quit =>
      rw [responds] at first
      cases quit with
      | true =>
        rw [respondAll, App.deliver_quit responds]
        exact ⟨intents, first⟩
      | false =>
        obtain ⟨later, rest⟩ := ih next
        rw [respondAll, App.deliver_on responds]
        refine ⟨intents ++ later, ?_⟩
        rw [Session.run_append, ← first]
        exact rest

theorem within_respondAll {gallery : Gallery} {settings : Settings} {selected : Nat} {s : Session}
    (started : Session.start gallery settings selected = .ok s) (events : List Event) :
    ((start s).respondAll events).1.session.scene.Within := by
  have base : s.scene.Within := by
    have same : s.scene = .initial gallery settings selected :=
      congrArg Uncached.scene (Session.start_fresh started).1
    rw [same]
    exact Nat.zero_le _
  obtain ⟨intents, run⟩ := (start s).session_respondAll events
  rw [run]
  exact Session.run_preserves (P := (·.scene.Within)) (Session.apply_preserves Scene.act_within) base
    intents

theorem preview_of_editing {v : Viewer} (editing : v.mode = .edit) :
    v.preview = v.session.scene.view.cursor.preview v.session.scene.current := by
  simp only [preview, editing, Session.preview]

section

variable {v : Viewer} {w bottom : Nat} (wide : 1 ≤ w)
include wide

theorem row?_paint_field {c : Cursor} {f : Fractal} (preview : v.preview = c.preview f) {row y : Nat}
    {line : String} (found : (c.fieldLines f)[row]? = some line)
    (place : row + bottom = Cursor.lastRow f + 1 + y) :
    (v.paint (.blank w (bottom + 2))).row? y = some (shownRow w .plain .plain line) := by
  have length := c.length_preview f
  rw [← c.preview_field f row] at found
  rw [← preview] at length found
  exact row?_paint_line wide found (by omega)

/-- Where the field rows below the cursor fill the frame, its own row is not shown. -/
theorem row?_paint_hidden {c : Cursor} {f : Fractal} (preview : v.preview = c.preview f)
    {line : String} (found : (c.fieldLines f)[c.row]? = some line)
    (short : c.row + bottom ≤ Cursor.lastRow f) {y : Nat} (above : y < bottom) :
    (v.paint (.blank w (bottom + 2))).row? y ≠ some (shownRow w .plain .plain line) := by
  obtain ⟨row, place⟩ : ∃ row, row + bottom = Cursor.lastRow f + 1 + y :=
    ⟨Cursor.lastRow f + 1 + y - bottom, by omega⟩
  have inside : row < (c.fieldLines f).length := by
    rw [c.length_fieldLines f]
    omega
  have lower : c.row ≠ row := by omega
  have other := List.getElem?_eq_getElem inside
  have marked := Cursor.head_fieldLines found
  have unmarked := Cursor.head_fieldLines other
  rw [if_pos rfl] at marked
  rw [if_neg lower] at unmarked
  rw [row?_paint_field wide preview other place]
  refine fun same => ?_
  exact shownRow_ne wide (by decide) (by decide) (by decide) unmarked marked .plain .plain
    (Option.some.inj same)

end

/-- While a fractal is edited, the row under the cursor is shown above the message line if the field
rows below it leave a row to it, and only then; these stand between it and the message. -/
theorem cursor_row_shown_iff {gallery : Gallery} {settings : Settings} {selected : Nat} {s : Session}
    (started : Session.start gallery settings selected = .ok s) (events : List Event) (w h : Nat)
    (wide : 1 ≤ w) (high : 3 ≤ h) :
    let v := ((start s).respondAll events).1
    let c := v.session.scene.view.cursor
    let f := v.session.scene.current
    let below := Cursor.lastRow f - c.row
    let painted := v.paint (.blank w h)
    v.mode = .edit →
    ∃ field line, c.field? f = some field ∧
      v.preview[Cursor.previewRounds + 1 + field.row]? = some line ∧
      line.toList.head? = some '>' ∧
      ((∃ y < h - 2, painted.row? y = some (shownRow w .plain .plain line)) ↔ below < h - 2) ∧
      (below < h - 2 → painted.row? (h - 3 - below) = some (shownRow w .plain .plain line)) := by
  intro v c f below painted editing
  obtain ⟨bottom, rfl⟩ := Nat.exists_eq_add_of_le' (show 2 ≤ h by omega)
  have within : c.Within f := within_respondAll started events
  have row : c.row ≤ Cursor.lastRow f := within
  have preview : v.preview = c.preview f := preview_of_editing editing
  obtain ⟨field, on, fieldRow⟩ := within.field
  have inside : c.row < (c.fieldLines f).length := by
    rw [Cursor.length_fieldLines]
    omega
  obtain ⟨line, found⟩ : ∃ line, (c.fieldLines f)[c.row]? = some line :=
    ⟨_, List.getElem?_eq_getElem inside⟩
  have marked := Cursor.head_fieldLines found
  rw [if_pos rfl] at marked
  have shown : below < bottom →
      painted.row? (bottom + 2 - 3 - below) = some (shownRow w .plain .plain line) := by
    intro fits
    exact row?_paint_field wide preview found (by omega)
  refine ⟨field, line, on, ?_, marked, ⟨?_, fun fits => ⟨_, by omega, shown fits⟩⟩, shown⟩
  · rw [fieldRow, preview, Cursor.preview_field]
    exact found
  · rintro ⟨y, above, here⟩
    refine Nat.lt_of_not_le fun short => ?_
    exact row?_paint_hidden wide preview found (by omega) above here

/-- The dragon curve is copied, and the cursor taken down to its first rule. One more rule is below. -/
theorem copied_dragon_cursor_row_shown :
    let s : Session :=
      ⟨{ iterations := 0 }, .initial .seeded { iterations := 0 } 1, ⟨⟨1, 0, 0⟩, "F"⟩⟩
    let v := ((start s).respondAll [.press (.char 'r'), .press .down, .press .down]).1
    Session.start .seeded { iterations := 0 } 1 = .ok s ∧ v.mode = .edit ∧
    (v.paint (.blank 10 4)).row? 0 = some (shownRow 10 .plain .plain ">F -> F+G") := by
  intro s v
  have started : Session.start .seeded { iterations := 0 } 1 = .ok s := rfl
  have editing : v.mode = .edit := by decide +kernel
  have rule : v.session.scene.view.cursor.field? v.session.scene.current = some (.value 0) := by
    decide +kernel
  have text : v.preview[5]? = some ">F -> F+G" := by decide +kernel
  have below : Cursor.lastRow v.session.scene.current - v.session.scene.view.cursor.row = 1 := by
    decide +kernel
  have run : ((start s).respondAll [.press (.char 'r'), .press .down, .press .down]).1 = v := rfl
  have cursor := cursor_row_shown_iff started
    [.press (.char 'r'), .press .down, .press .down] 10 4 (by decide) (by decide)
  -- From here on it does not matter how the viewer came about.
  clear_value v
  rw [run] at cursor
  obtain ⟨field, line, on, found, _, _, shown⟩ := cursor editing
  obtain rfl : .value 0 = field := Option.some.inj (rule.symm.trans on)
  obtain rfl : ">F -> F+G" = line := Option.some.inj (text.symm.trans found)
  rw [below] at shown
  exact ⟨started, editing, shown (by decide)⟩

/-- The cursor is on the name of the copy, and the rows below it fill a frame of three rows. -/
theorem copied_dragon_cursor_row_hidden :
    let s : Session :=
      ⟨{ iterations := 0 }, .initial .seeded { iterations := 0 } 1, ⟨⟨1, 0, 0⟩, "F"⟩⟩
    let v := ((start s).respondAll [.press (.char 'r')]).1
    Session.start .seeded { iterations := 0 } 1 = .ok s ∧ v.mode = .edit ∧
    v.preview[3]? = some ">Name: New Fractal" ∧
    ¬ ∃ y < 3 - 2, (v.paint (.blank 10 3)).row? y =
      some (shownRow 10 .plain .plain ">Name: New Fractal") := by
  intro s v
  have editing : v.mode = .edit := by decide +kernel
  have preview := preview_of_editing editing
  have name : v.preview[3]? = some ">Name: New Fractal" := by decide +kernel
  have found := name
  rw [preview] at found
  refine ⟨rfl, editing, name, ?_⟩
  rintro ⟨y, above, here⟩
  exact row?_paint_hidden (by decide) preview (by decide +kernel) (by decide +kernel) above here

end Viewer

end LSystem
