import LSystem.Proofs.FrameLayers
import LSystem.Proofs.RampPlaces

/-! Pixels and cells. While a fractal is viewed, the picture has a pixel for each cell above the
message. A row of cells holds the glyphs of its pixels, each in the column of its own, as long as all of
them fill one cell. A glyph that does not shifts those behind it. -/

namespace LSystem

namespace Terminal

/-- The character is painted into one cell, and needs no other. -/
def FillsCell (c : Char) : Prop := Text.columns c ≠ 0 ∧ Text.columns c ≠ 2

instance : DecidablePred FillsCell := fun _ => inferInstanceAs (Decidable (_ ∧ _))

section

variable (attrs rest : Attrs) {c : Char} {text : List Char}

/-- A row of one column for each character of a text, and the text painted into it. -/
def ownRow (text : List Char) : List Cell :=
  let cells := layout attrs text.length text
  cells ++ List.replicate (text.length - cells.length) ⟨some ' ', rest⟩

theorem shownRow_own (text : String) :
    shownRow text.length attrs rest text = ownRow attrs rest text.toList := by
  simp [shownRow_eq, splice, ownRow, String.length_toList]

theorem length_ownRow (text : List Char) : (ownRow attrs rest text).length = text.length := by
  have fits := length_layout_le attrs text.length text
  simp only [ownRow, List.length_append, List.length_replicate]
  omega

theorem ownRow_cons (fills : FillsCell c) :
    ownRow attrs rest (c :: text) = ⟨some c, attrs⟩ :: ownRow attrs rest text := by
  have cells : layout attrs (text.length + 1) (c :: text) =
      ⟨some c, attrs⟩ :: layout attrs text.length text := by
    simp only [layout]
    split
    · next none => exact absurd none fills.1
    · next wide => exact absurd wide fills.2
    · rfl
  simp [ownRow, cells]

theorem columns_of_mem_layout (room : Nat) (text : List Char) :
    ∀ cell ∈ layout attrs room text, cell.glyph = some c → Text.columns c ≠ 0 := by
  have blank : Text.columns ' ' ≠ 0 := by decide
  fun_induction layout attrs room text with
  | case1 | case2 => simp
  | case3 _ _ _ _ ih => exact ih
  | case4 =>
    simp only [List.mem_singleton, forall_eq, Option.some_inj]
    rintro rfl
    exact blank
  | case5 _ _ wide _ ih =>
    simp only [List.mem_cons, forall_eq_or_imp, Cell.continuation, Option.some_inj]
    refine ⟨?_, fun second => ?_, ih⟩
    · rintro rfl none
      rw [wide] at none
      contradiction
    · contradiction
  | case6 _ _ _ visible _ ih =>
    simp only [List.mem_cons, forall_eq_or_imp, Option.some_inj]
    refine ⟨?_, ih⟩
    rintro rfl
    exact visible

/-- A character of no column is nowhere in a row, so it is not in its own column either. -/
theorem columns_of_mem_ownRow : ∀ cell ∈ ownRow attrs rest text, cell.glyph = some c →
    Text.columns c ≠ 0 := by
  intro cell mem
  rcases List.mem_append.mp mem with painted | padded
  · exact columns_of_mem_layout attrs _ text cell painted
  · rw [List.eq_of_mem_replicate padded, Option.some_inj]
    rintro rfl
    decide

theorem ownRow_wide (wide : Text.columns c = 2) :
    (ownRow attrs rest (c :: text)).map Cell.glyph ≠ (c :: text).map some := by
  cases text with
  | nil =>
    have half : ownRow attrs rest [c] = [⟨some ' ', attrs⟩] := by simp [ownRow, layout, wide]
    intro same
    obtain rfl : ' ' = c := by simpa [half] using same
    contradiction
  | cons d text => simp [ownRow, layout, wide, Cell.continuation]

theorem glyphs_ownRow_iff (text : List Char) :
    (ownRow attrs rest text).map Cell.glyph = text.map some ↔ ∀ c ∈ text, FillsCell c := by
  induction text with
  | nil => simp [ownRow, layout]
  | cons c text ih =>
    by_cases fills : FillsCell c
    · simp [ownRow_cons attrs rest fills, ih, fills]
    · refine iff_of_false (fun same => ?_) fun all => fills (all c List.mem_cons_self)
      obtain none | wide : Text.columns c = 0 ∨ Text.columns c = 2 := by
        rw [FillsCell] at fills
        omega
      · have mem : some c ∈ (ownRow attrs rest (c :: text)).map Cell.glyph := by simp [same]
        obtain ⟨cell, inside, glyph⟩ := List.mem_map.mp mem
        exact columns_of_mem_ownRow attrs rest cell inside glyph none
      · exact ownRow_wide attrs rest wide same

end

/-- A row of cells compared with a text column by column. -/
theorem glyphs_eq_iff {cells : List Cell} {text : List Char} (same : cells.length = text.length) :
    cells.map Cell.glyph = text.map some ↔
      ∀ x < text.length, cells[x]?.bind Cell.glyph = text[x]? := by
  constructor
  · intro glyphs x inside
    have here := congrArg (·[x]?) glyphs
    simp only [List.getElem?_map, List.getElem?_eq_getElem inside,
      List.getElem?_eq_getElem (same.symm ▸ inside : x < cells.length), Option.map_some] at here ⊢
    exact Option.some_inj.mp here
  · intro columns
    refine List.ext_getElem (by simpa using same) fun x _ inside => ?_
    have row : x < text.length := by simpa using inside
    have here := columns x row
    simpa [List.getElem?_eq_getElem row, same.symm ▸ row] using here

end Terminal

namespace Session

/-- An empty word leaves the canvas as it was. -/
theorem canvas_of_empty {s : Session} (empty : s.word = "") (width height : Nat) :
    s.canvas width height = .blank width height := by
  rw [canvas, empty, Turtle.walk_eq_foldl_trace]
  rfl

theorem exists_line (s : Session) {width height y : Nat} (wide : 1 ≤ width) (inside : y < height) :
    ∃ line, (s.frame width height).rows[y]? = some line ∧ line.length = width := by
  obtain ⟨columns, rows⟩ := Prod.mk.inj (s.size_canvas width height)
  have row : y < (s.canvas width height).height := by rwa [rows]
  refine ⟨_, Canvas.getElem?_inGlyphs s.settings.ramp (by omega) row, ?_⟩
  rw [String.length_ofList, List.length_map, Canvas.length_row row, columns]

end Session

namespace Viewer

open Terminal

variable {v : Viewer} {w bottom y : Nat}

/-- While a fractal is viewed, all above the message belongs to the picture. -/
theorem row?_paint_viewed (viewing : v.mode = .view) (wide : 1 ≤ w) (above : y < bottom) :
    ∃ line, (v.session.frame w bottom).rows[y]? = some line ∧ line.length = w ∧
      (v.paint (.blank w (bottom + 2))).row? y = some (ownRow .plain .plain line.toList) := by
  obtain ⟨line, found, length⟩ := v.session.exists_line wide above
  have spare : v.spare bottom = bottom := by simp [spare, shownPreview, preview, viewing]
  have shown := row?_paint_picture (v := v) wide (by rwa [picture, spare])
  refine ⟨line, found, length, shown.trans (congrArg some ?_)⟩
  rw [← shownRow_own, length]

theorem row_holds_pixels_iff (viewing : v.mode = .view) (wide : 1 ≤ w) (above : y < bottom) :
    (∀ x < w, ((v.paint (.blank w (bottom + 2))).get? x y).bind Cell.glyph =
      (v.session.frame w bottom).get? x y) ↔
    ∀ x < w, ∀ glyph, (v.session.frame w bottom).get? x y = some glyph → FillsCell glyph := by
  obtain ⟨line, found, length, shown⟩ := row?_paint_viewed viewing wide above
  have columns : line.toList.length = w := by rw [String.length_toList, length]
  have own := glyphs_ownRow_iff .plain .plain line.toList
  rw [glyphs_eq_iff (length_ownRow ..), columns] at own
  have glyph (x : Nat) : (v.session.frame w bottom).get? x y = line.toList[x]? := by
    rw [TextImage.get?, found, Option.bind_some]
  have cell (x : Nat) : (v.paint (.blank w (bottom + 2))).get? x y =
      (ownRow .plain .plain line.toList)[x]? := by
    rw [Frame.get?, shown, Option.bind_some]
  simp only [glyph, cell]
  rw [own]
  constructor
  · intro all x _ c here
    exact all c (List.mem_of_getElem? here)
  · intro all c mem
    obtain ⟨x, here⟩ := List.mem_iff_getElem?.mp mem
    exact all x (columns ▸ (List.getElem?_eq_some_iff.mp here).1) c here

/-- Each cell of a row holds the glyph of its pixel if all these glyphs fill one cell, and only then. So
the picture of a ramp of such glyphs is shown pixel by pixel. -/
theorem cells_hold_pixels_iff (v : Viewer) (viewing : v.mode = .view) (w h : Nat) (wide : 1 ≤ w)
    (high : 3 ≤ h) :
    let canvas := v.session.canvas w (h - 2)
    let ramp := v.session.settings.ramp
    let image := canvas.inGlyphs ramp
    let painted := v.paint (.blank w h)
    (∀ x < w, ∀ y < h - 2, ∃ p, canvas.get? x y = some p ∧
      image.get? x y = some (ramp.glyphOfGray p.gray)) ∧
    (∀ y < h - 2, (∀ x < w, (painted.get? x y).bind Cell.glyph = image.get? x y) ↔
      ∀ x < w, ∀ glyph, image.get? x y = some glyph → FillsCell glyph) ∧
    ((∀ i < ramp.size, FillsCell (ramp.glyph i)) →
      ∀ x < w, ∀ y < h - 2, (painted.get? x y).bind Cell.glyph = image.get? x y) := by
  obtain ⟨bottom, rfl⟩ := Nat.exists_eq_add_of_le' (show 2 ≤ h by omega)
  rw [Nat.add_sub_cancel]
  intro canvas ramp image painted
  obtain ⟨columns, rows⟩ := Prod.mk.inj (v.session.size_canvas w bottom)
  have pixel : ∀ x < w, ∀ y < bottom, ∃ p, canvas.get? x y = some p ∧
      image.get? x y = some (ramp.glyphOfGray p.gray) := by
    intro x column y row
    obtain ⟨p, _, here⟩ := canvas.exists_get? (columns.symm ▸ column) (rows.symm ▸ row)
    exact ⟨p, here, by rw [Canvas.get?_inGlyphs, here, Option.map_some]⟩
  refine ⟨pixel, fun y above => row_holds_pixels_iff viewing wide above,
    fun fill x column y above => ?_⟩
  refine (row_holds_pixels_iff viewing wide above).mpr (fun x column glyph here => ?_) x column
  obtain ⟨p, _, ramped⟩ := pixel x column y above
  cases here.symm.trans ramped
  exact fill _ (ramp.indexOfGray_lt p.gray_le)

/-- A picture without strokes, in the lightest glyph. -/
theorem digits_hold_pixels :
    let ramp : GlyphRamp := ⟨"9876543210".toList.toArray, by decide⟩
    let settings : Settings := { ramp, iterations := 0 }
    let gallery : Gallery := ⟨[.new "Empty" "" 90 .empty], List.cons_ne_nil _ _⟩
    let s : Session := ⟨settings, .initial gallery settings 0, ⟨⟨0, 0, 0⟩, ""⟩⟩
    Session.start gallery settings 0 = .ok s ∧ (start s).mode = .view ∧
    (∀ i < ramp.size, FillsCell (ramp.glyph i)) ∧
    (((start s).paint (.blank 4 3)).get? 3 0).bind Cell.glyph = some '0' := by
  intro ramp settings gallery s
  have fill : ∀ i < ramp.size, FillsCell (ramp.glyph i) := by decide +kernel
  have blank : s.canvas 4 1 = .blank 4 1 := Session.canvas_of_empty rfl 4 1
  obtain ⟨_, _, all⟩ := cells_hold_pixels_iff (start s) rfl 4 3 (by decide) (by decide)
  refine ⟨rfl, rfl, fill, (all fill 3 (by decide) 0 (by decide)).trans ?_⟩
  change ((s.canvas 4 1).inGlyphs ramp).get? 3 0 = some '0'
  rw [blank, Canvas.get?_inGlyphs, Canvas.get?_blank (by decide) (by decide)]
  decide +kernel

/-- A wide glyph is a glyph like any other to the ramp, but each one that is painted takes the cell of the
next pixel. -/
theorem wide_glyph_takes_next_cell :
    let ramp : GlyphRamp := ⟨"$@B%8&WM#界".toList.toArray, by decide⟩
    let settings : Settings := { ramp, iterations := 0 }
    let gallery : Gallery := ⟨[.new "Empty" "" 90 .empty], List.cons_ne_nil _ _⟩
    let s : Session := ⟨settings, .initial gallery settings 0, ⟨⟨0, 0, 0⟩, ""⟩⟩
    GlyphRamp.ofString? "$@B%8&WM#界" = some ramp ∧ Session.start gallery settings 0 = .ok s ∧
    (start s).mode = .view ∧ ((s.canvas 4 1).inGlyphs ramp).get? 1 0 = some '界' ∧
    ((start s).paint (.blank 4 3)).get? 1 0 = some (.continuation .plain) := by
  intro ramp settings gallery s
  have blank : s.canvas 4 1 = .blank 4 1 := Session.canvas_of_empty rfl 4 1
  have picture : (s.frame 4 1).rows[0]? = some "界界界界" := by
    rw [Session.frame, blank]
    decide +kernel
  obtain ⟨line, found, _, shown⟩ :=
    @row?_paint_viewed (start s) 4 1 0 rfl (by decide) (by decide)
  cases found.symm.trans picture
  refine ⟨rfl, rfl, rfl, ?_, ?_⟩
  · change (s.frame 4 1).get? 1 0 = some '界'
    rw [TextImage.get?, picture]
    rfl
  · rw [Frame.get?, shown]
    decide +kernel

end Viewer

end LSystem
