import LSystem.Proofs.PictureSize
import LSystem.Proofs.RampPlaces

/-! Pictures are gray. Each dot treats the three channels of a pixel alike, and it looks for its pixel
behind a check of the position, so whatever numbers a stroke is computed from, it leaves a grid of gray
pixels of the old size, and the picture is a grid of glyphs. -/

namespace LSystem

open Coordinate

variable {α : Type} [Coordinate α]

def Pixel.ofGray (v : UInt8) : Pixel := ⟨v, v, v⟩

theorem Pixel.gray_ofGray (v : UInt8) : (ofGray v).gray = v.toNat := by
  simp only [ofGray, gray]
  omega

/-- The dots of a stroke that is clipped to a box. -/
def Segment.dots (stretch : α) (box : Box α) (s : Segment α) : List (Dot α) :=
  let widen (p : Point α) : Point α := { p with x := p.x * stretch }
  ((box.clip (widen s.start) (widen s.stop)).map fun ends => Line.dots ends.1 ends.2).getD []

namespace Canvas

theorem stroke_eq (stretch : α) (c : Canvas) (s : Segment α) :
    c.stroke stretch s = (s.dots stretch (.around c)).foldl darken c := by
  unfold stroke Segment.dots
  dsimp only
  split
  · next clipped =>
    rw [clipped]
    rfl
  · next clipped =>
    rw [clipped]
    rfl

theorem around_congr {c d : Canvas} (same : c.size = d.size) :
    (Box.around c : Box α) = .around d := by
  obtain ⟨width, height⟩ := Prod.mk.inj same
  simp only [Box.around, width, height]

/-- All strokes are clipped to one box, because drawing keeps the size. -/
theorem foldl_stroke (stretch : α) (strokes : List (Segment α)) (c : Canvas) :
    strokes.foldl (stroke stretch) c =
      (strokes.flatMap (Segment.dots stretch (.around c))).foldl darken c := by
  induction strokes generalizing c with
  | nil => rfl
  | cons s strokes ih =>
    have box : (Box.around (c.stroke stretch s) : Box α) = .around c :=
      around_congr (size_stroke stretch c s)
    rw [List.foldl_cons, List.flatMap_cons, List.foldl_append, ih, box, stroke_eq]

/-! ### Equal channels -/

def IsGray (c : Canvas) : Prop := ∀ x y p, c.get? x y = some p → ∃ v, p = .ofGray v

theorem blank_isGray (width height : Nat) : (blank width height).IsGray := by
  intro x y p here
  obtain ⟨column, row⟩ := inside_of_get? here
  have white := get?_blank column row
  exact ⟨255, (Option.some.inj (white.symm.trans here)).symm⟩

theorem IsGray.modify {c : Canvas} (gray : c.IsGray) (x y : Nat) (f : UInt8 → UInt8) :
    (c.modify x y (·.map f)).IsGray := by
  intro i j p here
  rw [get?_modify] at here
  split at here
  · obtain ⟨q, before, rfl⟩ := Option.map_eq_some_iff.mp here
    obtain ⟨v, rfl⟩ := gray i j q before
    exact ⟨f v, rfl⟩
  · exact gray i j p here

theorem IsGray.darken {c : Canvas} (gray : c.IsGray) (d : Dot α) : (c.darken d).IsGray := by
  unfold Canvas.darken
  split
  · exact gray
  · exact gray.modify _ _ _

theorem IsGray.foldl_darken {c : Canvas} (gray : c.IsGray) (dots : List (Dot α)) :
    (dots.foldl Canvas.darken c).IsGray := by
  induction dots generalizing c with
  | nil => exact gray
  | cons d dots ih => exact ih (gray.darken d)

/-! ### Accesses by words

The sides of a canvas are words of 32 bits, and so are the positions of its pixels. A dot is compared
with the sides before its position is cut to such words; an access outside the grid would be an end of
the program. -/

def write? (c : Canvas) (x y : UInt32) (f : Pixel → Pixel) : Option Canvas :=
  if x.toNat < c.width ∧ y.toNat < c.height then some (c.modify x.toNat y.toNat f) else none

def darken? (c : Canvas) (d : Dot α) : Option Canvas :=
  if le d.coverage 0 || lt d.x 0 || lt d.y 0 then some c
  else
    let x := toNat d.x
    let y := toNat d.y
    if c.width ≤ x ∨ c.height ≤ y then some c
    else
      let keep : α := 1 - if lt d.coverage 1 then d.coverage else 1
      c.write? (.ofNat x) (.ofNat y) (·.map (fade · keep))

def draw? (c : Canvas) (dots : List (Dot α)) : Option Canvas := dots.foldlM darken? c

structure Bounded (c : Canvas) : Prop where
  width : c.width < UInt32.size
  height : c.height < UInt32.size

theorem Bounded.of_size {c d : Canvas} (bounded : c.Bounded) (same : d.size = c.size) : d.Bounded := by
  obtain ⟨width, height⟩ := Prod.mk.inj same
  exact ⟨width ▸ bounded.width, height ▸ bounded.height⟩

theorem modify_of_outside {c : Canvas} {x y : Nat} (outside : ¬ (x < c.width ∧ y < c.height))
    (f : Pixel → Pixel) : c.modify x y f = c := if_neg outside

theorem darken?_eq {c : Canvas} (bounded : c.Bounded) (d : Dot α) :
    c.darken? d = some (c.darken d) := by
  unfold darken? darken
  split
  · rfl
  · dsimp only
    split
    · next outside => rw [modify_of_outside (by omega)]
    · next inside =>
      have width := bounded.width
      have height := bounded.height
      -- Only positions on the canvas are cut to words, and those are not changed by it.
      have column : (UInt32.ofNat (toNat d.x)).toNat = toNat d.x :=
        UInt32.toNat_ofNat_of_lt' (by omega)
      have row : (UInt32.ofNat (toNat d.y)).toNat = toNat d.y :=
        UInt32.toNat_ofNat_of_lt' (by omega)
      rw [write?, column, row, if_pos (by omega)]

theorem draw?_eq {c : Canvas} (bounded : c.Bounded) (dots : List (Dot α)) :
    c.draw? dots = some (dots.foldl darken c) := by
  induction dots generalizing c with
  | nil => rfl
  | cons d dots ih =>
    rw [draw?, List.foldlM_cons, darken?_eq bounded, List.foldl_cons]
    exact ih (bounded.of_size (size_darken c d))

end Canvas

/-! ### Glyphs of gray pixels -/

namespace GlyphRamp

variable (r : GlyphRamp)

theorem glyph_mem (i : Nat) : r.glyph i ∈ r.glyphs := Array.getElem_mem _

theorem getElem?_indexOfGray {gray : Nat} (level : gray ≤ 255) :
    r.glyphs[gray * (r.size - 1) / 255]? = some (r.glyphOfGray gray) := by
  have inside : r.indexOfGray gray < r.glyphs.size := r.indexOfGray_lt level
  have unclamped : min (r.indexOfGray gray) (r.size - 1) = r.indexOfGray gray :=
    Nat.min_eq_left (Nat.le_pred_of_lt inside)
  simp only [glyphOfGray, glyph, unclamped]
  exact Array.getElem?_eq_getElem inside

end GlyphRamp

/-- A grid of gray pixels and its picture: as many glyphs, each of the ramp and each at the place that
the pixel's channels have on the ramp. -/
structure Pictured (c : Canvas) (r : GlyphRamp) (width height : Nat) (image : TextImage) : Prop where
  rows : image.rows.length = height
  columns : ∀ line ∈ image.rows, line.length = width
  glyphs : ∀ line ∈ image.rows, ∀ glyph ∈ line.toList, glyph ∈ r.glyphs
  pixels : ∀ x y, x < width → y < height → ∃ (v : UInt8) (glyph : Char),
    c.get? x y = some ⟨v, v, v⟩ ∧ image.get? x y = some glyph ∧
      r.glyphs[v.toNat * (r.size - 1) / 255]? = some glyph

namespace Canvas

theorem mem_rows_inGlyphs {c : Canvas} {r : GlyphRamp} {line : String}
    (mem : line ∈ (c.inGlyphs r).rows) :
    ∃ y < c.height, line = String.ofList ((c.row y).map fun p => r.glyphOfGray p.gray) := by
  simp only [inGlyphs] at mem
  split at mem
  · contradiction
  · obtain ⟨y, row, rfl⟩ := List.mem_map.mp mem
    exact ⟨y, List.mem_range.mp row, rfl⟩

theorem IsGray.pictured {c : Canvas} (gray : c.IsGray) (r : GlyphRamp) (columns : c.width ≠ 0) :
    Pictured c r c.width c.height (c.inGlyphs r) := by
  constructor
  case rows => simp [inGlyphs, columns]
  case columns =>
    intro line mem
    obtain ⟨y, row, rfl⟩ := mem_rows_inGlyphs mem
    rw [String.length_ofList, List.length_map, length_row row]
  case glyphs =>
    intro line mem glyph among
    obtain ⟨y, row, rfl⟩ := mem_rows_inGlyphs mem
    rw [String.toList_ofList] at among
    obtain ⟨p, _, rfl⟩ := List.mem_map.mp among
    exact r.glyph_mem _
  case pixels =>
    intro x y column row
    obtain ⟨p, _, here⟩ := exists_get? column row
    obtain ⟨v, rfl⟩ := gray x y p here
    have level := r.getElem?_indexOfGray (Nat.le_of_lt_succ v.toNat_lt)
    refine ⟨v, _, here, ?_, level⟩
    rw [get?_inGlyphs, here, Option.map_some, Pixel.gray_ofGray]

/-- Whatever the dots are, a white canvas takes them all and stays gray. -/
theorem draw?_pictured {width : UInt32} (wide : 1 ≤ width.toNat) (height : UInt32) (r : GlyphRamp)
    (dots : List (Dot α)) :
    let c := dots.foldl darken (blank width.toNat height.toNat)
    (blank width.toNat height.toNat).draw? dots = some c ∧
      Pictured c r width.toNat height.toNat (c.inGlyphs r) := by
  intro c
  have size : c.size = (width.toNat, height.toNat) := size_foldl size_darken dots _
  obtain ⟨columns, rows⟩ := Prod.mk.inj size
  have gray : c.IsGray := (blank_isGray _ _).foldl_darken dots
  have pictured := gray.pictured r (by omega)
  rw [columns, rows] at pictured
  exact ⟨draw?_eq ⟨width.toNat_lt, height.toNat_lt⟩ dots, pictured⟩

end Canvas

namespace Session

/-- The dots of all strokes of the session's word. -/
def dots (s : Session) (width height : Nat) : List (Dot Float) :=
  (Turtle.trace s.gait (s.turtle width height) s.word.toList).1.flatMap
    (Segment.dots s.settings.stretch (.around (.blank width height)))

theorem canvas_eq (s : Session) (width height : Nat) :
    s.canvas width height = (s.dots width height).foldl Canvas.darken (.blank width height) := by
  rw [canvas, Turtle.walk_eq_foldl_trace, Canvas.foldl_stroke]
  rfl

/-- A session's picture has the size that was asked for and shows each gray pixel by the glyph at its
place, and every access of the drawing is on the canvas. The numbers do not matter: it is the same for
all strokes, and for every list of dots, of any length, over every type of numbers. -/
theorem frame_pictured (s : Session) (width height : UInt32) (wide : 1 ≤ width.toNat) :
    (∀ (β : Type) [Coordinate β] (dots : List (Dot β)), ∃ c,
      (Canvas.blank width.toNat height.toNat).draw? dots = some c ∧
        Pictured c s.settings.ramp width.toNat height.toNat (c.inGlyphs s.settings.ramp)) ∧
    (∀ (β : Type) [Coordinate β] (stretch : β) (strokes : List (Segment β)),
      let box : Box β := .around (.blank width.toNat height.toNat)
      let c := Canvas.drawn stretch width.toNat height.toNat strokes
      (Canvas.blank width.toNat height.toNat).draw? (strokes.flatMap (Segment.dots stretch box)) =
        some c ∧
      Pictured c s.settings.ramp width.toNat height.toNat (c.inGlyphs s.settings.ramp)) ∧
    (Canvas.blank width.toNat height.toNat).draw? (s.dots width.toNat height.toNat) =
      some (s.canvas width.toNat height.toNat) ∧
    Pictured (s.canvas width.toNat height.toNat) s.settings.ramp width.toNat height.toNat
      (s.frame width.toNat height.toNat) := by
  refine ⟨fun β _ dots => ⟨_, Canvas.draw?_pictured wide height s.settings.ramp dots⟩,
    fun β _ stretch strokes => ?_, ?_⟩
  · intro box c
    have drawn : c = (strokes.flatMap (Segment.dots stretch box)).foldl Canvas.darken
        (.blank width.toNat height.toNat) := Canvas.foldl_stroke stretch strokes _
    rw [drawn]
    exact Canvas.draw?_pictured wide height s.settings.ramp _
  · have own := Canvas.draw?_pictured wide height s.settings.ramp (s.dots width.toNat height.toNat)
    rw [← canvas_eq] at own
    exact own

/-- The dragon curve at generation 0, and a stroke in exact numbers on the same canvas. -/
theorem dragon_frame_pictured :
    let s : Session :=
      ⟨{ iterations := 0 }, .initial .seeded { iterations := 0 } 1, ⟨⟨1, 0, 0⟩, "F"⟩⟩
    let stroke : List (Dot Rat) := Line.dots ⟨ofNat 0, ofNat 1⟩ ⟨ofNat 4, ofNat 1⟩
    Session.start .seeded { iterations := 0 } 1 = .ok s ∧ 1 ≤ (80 : UInt32).toNat ∧
    (s.frame 80 24).rows.length = 24 ∧
    (∃ v : UInt8, (s.canvas 80 24).get? 79 23 = some ⟨v, v, v⟩) ∧
    ∃ c, (Canvas.blank 80 24).draw? stroke = some c ∧
      (c.inGlyphs .standard).get? 2 1 = some '$' := by
  intro s stroke
  have wide : 1 ≤ (80 : UInt32).toNat := by decide
  obtain ⟨any, _, _, own⟩ := frame_pictured s 80 24 wide
  obtain ⟨v, _, corner, _⟩ := own.pixels 79 23 (by decide) (by decide)
  obtain ⟨c, (drawn : (Canvas.blank 80 24).draw? stroke = some c), pictured⟩ := any Rat stroke
  have black : ((Canvas.blank 80 24).draw? stroke).bind (·.get? 2 1) = some ⟨0, 0, 0⟩ := by
    decide +kernel
  obtain ⟨w, glyph, pixel, here, place⟩ := pictured.pixels 2 1 (by decide) (by decide)
  refine ⟨rfl, wide, own.rows, ⟨v, corner⟩, c, drawn, here.trans (congrArg some ?_)⟩
  rw [drawn, Option.bind_some, pixel] at black
  cases black
  exact Option.some.inj (place.symm.trans (by decide))

end Session

end LSystem
