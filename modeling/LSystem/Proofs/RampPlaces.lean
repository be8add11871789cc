import LSystem.GlyphRamp

/-! Gray levels and their places on a ramp. Both are quotients that are rounded down, so the order of
the pixels survives both, and nothing but white gets the last place. -/

namespace LSystem

namespace GlyphRamp

variable (r : GlyphRamp) {gray : Nat}

/-- The place of a gray level, computed in words of 64 bits. -/
def indexWord (gray : UInt8) : UInt64 := gray.toUInt64 * (.ofNat r.size - 1) / 255

theorem indexOfGray_mono {a b : Nat} (darker : a ≤ b) : r.indexOfGray a ≤ r.indexOfGray b :=
  Nat.div_le_div_right (Nat.mul_le_mul_right _ darker)

theorem indexOfGray_white : r.indexOfGray 255 = r.size - 1 := Nat.mul_div_cancel_left _ (by decide)

theorem indexOfGray_lt (inside : gray ≤ 255) : r.indexOfGray gray < r.size := by
  have last := r.indexOfGray_mono inside
  have pos := r.size_pos
  rw [indexOfGray_white] at last
  omega

theorem indexOfGray_eq_last_iff (inside : gray ≤ 255) :
    r.indexOfGray gray = r.size - 1 ↔ gray = 255 := by
  constructor
  · intro last
    have enough : 10 ≤ r.size := r.enough
    have floor := Nat.div_mul_le_self (gray * (r.size - 1)) 255
    rw [← indexOfGray, last, Nat.mul_comm] at floor
    have white : 255 ≤ gray := Nat.le_of_mul_le_mul_right floor (by omega)
    exact Nat.le_antisymm inside white
  · rintro rfl
    exact r.indexOfGray_white

/-- On a ramp with no more glyphs than there are gray levels no glyph is skipped. -/
theorem exists_indexOfGray (short : r.size ≤ 256) {i : Nat} (inside : i < r.size) :
    ∃ gray ≤ 255, r.indexOfGray gray = i := by
  have enough : 10 ≤ r.size := r.enough
  obtain ⟨last, size⟩ : ∃ last, r.size = last + 1 := ⟨r.size - 1, by omega⟩
  -- The least level that reaches the place. The next place is more than one step of it away.
  obtain ⟨gray, least, most⟩ : ∃ gray, 255 * i ≤ gray * last ∧ gray * last < 255 * i + last := by
    have below := Nat.div_mul_le_self (255 * i + (last - 1)) last
    have above := Nat.lt_div_mul_add (a := 255 * i + (last - 1)) (show 0 < last by omega)
    exact ⟨(255 * i + (last - 1)) / last, by omega, by omega⟩
  have level : gray < 256 := by
    refine Nat.lt_of_mul_lt_mul_right (a := last) (Nat.lt_of_lt_of_le most ?_)
    omega
  refine ⟨gray, Nat.le_of_lt_succ level, ?_⟩
  rw [indexOfGray, size, Nat.add_sub_cancel]
  exact Nat.div_eq_of_lt_le (by omega) (by omega)

theorem toNat_indexWord (fits : 255 * r.size < UInt64.size) (gray : UInt8) :
    (r.indexWord gray).toNat = r.indexOfGray gray.toNat := by
  have pos := r.size_pos
  have level : gray.toNat ≤ 255 := Nat.le_of_lt_succ gray.toNat_lt
  have product : gray.toNat * (r.size - 1) ≤ 255 * r.size := Nat.mul_le_mul level (Nat.sub_le ..)
  have size : (UInt64.ofNat r.size).toNat = r.size := UInt64.toNat_ofNat_of_lt' (by omega)
  have least : (1 : UInt64) ≤ .ofNat r.size := by
    rw [UInt64.le_iff_toNat_le, size]
    exact pos
  have last : (UInt64.ofNat r.size - 1).toNat = r.size - 1 := by
    rw [UInt64.toNat_sub_of_le _ _ least, size]
    rfl
  rw [indexWord, UInt64.toNat_div, UInt64.toNat_mul, UInt8.toNat_toUInt64, last,
    Nat.mod_eq_of_lt (Nat.lt_of_le_of_lt product fits)]
  rfl

end GlyphRamp

namespace Pixel

/-- No channel is lighter. -/
structure NoLighter (p q : Pixel) : Prop where
  red : p.red ≤ q.red
  green : p.green ≤ q.green
  blue : p.blue ≤ q.blue

/-- The gray level, computed in words of 32 bits. -/
def grayWord (p : Pixel) : UInt8 :=
  ((30 * p.red.toUInt32 + 59 * p.green.toUInt32 + 11 * p.blue.toUInt32) / 100).toUInt8

theorem channels_le (p : Pixel) : p.red.toNat ≤ 255 ∧ p.green.toNat ≤ 255 ∧ p.blue.toNat ≤ 255 :=
  ⟨Nat.le_of_lt_succ p.red.toNat_lt, Nat.le_of_lt_succ p.green.toNat_lt,
    Nat.le_of_lt_succ p.blue.toNat_lt⟩

theorem gray_le (p : Pixel) : p.gray ≤ 255 := by
  have channels := p.channels_le
  rw [gray]
  omega

theorem NoLighter.gray {p q : Pixel} (darker : p.NoLighter q) : p.gray ≤ q.gray := by
  have red := UInt8.le_iff_toNat_le.mp darker.red
  have green := UInt8.le_iff_toNat_le.mp darker.green
  have blue := UInt8.le_iff_toNat_le.mp darker.blue
  refine Nat.div_le_div_right ?_
  omega

theorem gray_eq_iff (p : Pixel) : p.gray = 255 ↔ p = .white := by
  constructor
  · intro white
    have channels := p.channels_le
    rw [gray] at white
    have full : p.red.toNat = 255 ∧ p.green.toNat = 255 ∧ p.blue.toNat = 255 := by omega
    obtain ⟨red, green, blue⟩ := p
    rw [Pixel.white, mk.injEq]
    exact ⟨UInt8.toNat_inj.mp full.1, UInt8.toNat_inj.mp full.2.1, UInt8.toNat_inj.mp full.2.2⟩
  · rintro rfl
    rfl

theorem toNat_grayWord (p : Pixel) : p.grayWord.toNat = p.gray := by
  have channels := p.channels_le
  have bound := p.gray_le
  rw [gray] at bound ⊢
  simp only [grayWord, UInt32.toNat_toUInt8, UInt32.toNat_div, UInt32.toNat_add, UInt32.toNat_mul,
    UInt8.toNat_toUInt32, UInt32.reduceToNat]
  simp (disch := omega) only [Nat.mod_eq_of_lt]

end Pixel

/-- The glyph in column `x` of line `y`. -/
def TextImage.get? (t : TextImage) (x y : Nat) : Option Char :=
  t.rows[y]?.bind fun line => line.toList[x]?

namespace Canvas

/-- The place on the ramp of the pixel in column `x` of row `y`. -/
def place? (c : Canvas) (r : GlyphRamp) (x y : Nat) : Option Nat :=
  (c.get? x y).map fun p => r.indexOfGray p.gray

variable {c : Canvas} {x y : Nat}

theorem row_fits (inside : y < c.height) : y * c.width + c.width ≤ c.pixels.size := by
  rw [c.size_eq, ← Nat.succ_mul, Nat.mul_comm c.width]
  exact Nat.mul_le_mul_right _ inside

theorem length_row (inside : y < c.height) : (c.row y).length = c.width := by
  rw [row, Array.length_toList, Array.size_extract, Nat.succ_mul, Nat.min_eq_left (row_fits inside),
    Nat.add_sub_cancel_left]

theorem getElem?_row (inside : y < c.height) : (c.row y)[x]? = c.get? x y := by
  rw [row, Array.getElem?_toList, get?, Array.getElem?_extract, Nat.succ_mul,
    Nat.min_eq_left (row_fits inside), Nat.add_sub_cancel_left]
  simp [inside]

theorem get?_of_outside (outside : ¬ (x < c.width ∧ y < c.height)) : c.get? x y = none :=
  if_neg outside

theorem inside_of_get? {p : Pixel} (here : c.get? x y = some p) : x < c.width ∧ y < c.height := by
  refine Decidable.by_contra fun outside => ?_
  rw [get?_of_outside outside] at here
  contradiction

theorem exists_get? (column : x < c.width) (row : y < c.height) :
    ∃ p ∈ c.pixels, c.get? x y = some p := by
  have fits := c.row_fits row
  have inside : y * c.width + x < c.pixels.size := by omega
  exact ⟨_, Array.getElem_mem inside,
    (if_pos ⟨column, row⟩).trans (Array.getElem?_eq_getElem inside)⟩

theorem get?_blank {width height : Nat} (column : x < width) (row : y < height) :
    (blank width height).get? x y = some .white := by
  obtain ⟨p, mem, here⟩ := exists_get? (c := blank width height) column row
  rw [here, Array.eq_of_mem_replicate mem]

theorem place_inj {width x y i j : Nat} (column : x < width) (inside : i < width) :
    y * width + x = j * width + i ↔ i = x ∧ j = y := by
  constructor
  · intro same
    have wide : 0 < width := Nat.zero_lt_of_lt column
    have columns := congrArg (· % width) same
    have rows := congrArg (· / width) same
    simp only [Nat.mul_add_mod_self_right, Nat.mod_eq_of_lt column, Nat.mod_eq_of_lt inside] at columns
    simp only [Nat.mul_comm _ width, Nat.mul_add_div wide, Nat.div_eq_of_lt column,
      Nat.div_eq_of_lt inside, Nat.add_zero] at rows
    exact ⟨columns.symm, rows.symm⟩
  · rintro ⟨rfl, rfl⟩
    rfl

/-- A modification reaches no other pixel. -/
theorem get?_modify (c : Canvas) (x y i j : Nat) (f : Pixel → Pixel) :
    (c.modify x y f).get? i j = if i = x ∧ j = y then (c.get? i j).map f else c.get? i j := by
  obtain ⟨width, height, pixels, size_eq⟩ := c
  unfold modify get?
  dsimp only
  split
  · next position =>
    by_cases inside : i < width ∧ j < height
    · simp only [inside, and_self, if_true, Array.getElem?_modify, place_inj position.1 inside.1]
    · simp only [inside, if_false, Option.map_none, ite_self]
  · next position =>
    by_cases same : i = x ∧ j = y
    · simp only [same, and_self, position, if_true, if_false, Option.map_none]
    · rw [if_neg same]

theorem getElem?_inGlyphs (r : GlyphRamp) (columns : c.width ≠ 0) (inside : y < c.height) :
    (c.inGlyphs r).rows[y]? =
      some (String.ofList ((c.row y).map fun p => r.glyphOfGray p.gray)) := by
  simp [inGlyphs, columns, inside]

/-- The glyphs of a canvas stand where its pixels are. -/
theorem get?_inGlyphs (c : Canvas) (r : GlyphRamp) (x y : Nat) :
    (c.inGlyphs r).get? x y = (c.get? x y).map fun p => r.glyphOfGray p.gray := by
  by_cases within : c.width ≠ 0 ∧ y < c.height
  · rw [TextImage.get?, getElem?_inGlyphs r within.1 within.2, ← getElem?_row within.2]
    simp
  · have none : (c.inGlyphs r).rows[y]? = none := by
      simp only [inGlyphs]
      split
      · rfl
      · next columns => simpa using fun inside => within ⟨columns, inside⟩
    rw [TextImage.get?, none, get?_of_outside (fun inside => within ⟨by omega, inside.2⟩)]
    rfl

theorem place?_blank (r : GlyphRamp) {width height : Nat} (column : x < width) (row : y < height) :
    (blank width height).place? r x y = some (r.size - 1) := by
  rw [place?, get?_blank column row]
  exact congrArg some r.indexOfGray_white

theorem place?_mono {r : GlyphRamp} {d : Canvas}
    (darker : ∀ x y p q, c.get? x y = some p → d.get? x y = some q → p.NoLighter q) {i j : Nat}
    (first : c.place? r x y = some i) (second : d.place? r x y = some j) : i ≤ j := by
  obtain ⟨p, dark, rfl⟩ := Option.map_eq_some_iff.mp first
  obtain ⟨q, light, rfl⟩ := Option.map_eq_some_iff.mp second
  exact r.indexOfGray_mono (darker x y p q dark light).gray

theorem place?_eq_last_iff (r : GlyphRamp) {p : Pixel} (here : c.get? x y = some p) :
    c.place? r x y = some (r.size - 1) ↔ p = .white := by
  rw [place?, here, Option.map_some, Option.some_inj, r.indexOfGray_eq_last_iff p.gray_le,
    p.gray_eq_iff]

end Canvas

/-- The places of the gray levels run in order along the whole ramp, and the places of the pixels keep
the order of the pixels. Nothing but white shares the last place with the blank canvas. -/
theorem places_exact (r : GlyphRamp) (fits : 255 * r.size < UInt64.size) :
    (∀ gray : UInt8, (r.indexWord gray).toNat = r.indexOfGray gray.toNat ∧
      r.indexOfGray gray.toNat < r.size) ∧
    (∀ a b : UInt8, a ≤ b → r.indexOfGray a.toNat ≤ r.indexOfGray b.toNat) ∧
    r.indexOfGray 0 = 0 ∧
    (∀ gray : UInt8, r.indexOfGray gray.toNat = r.size - 1 ↔ gray = 255) ∧
    (r.size ≤ 256 → ∀ i < r.size, ∃ gray : UInt8, r.indexOfGray gray.toNat = i) ∧
    (∀ p : Pixel, p.grayWord.toNat = p.gray) ∧
    (∀ (c : Canvas) x y, (c.inGlyphs r).get? x y = (c.place? r x y).map r.glyph) ∧
    (∀ c d : Canvas, (∀ x y p q, c.get? x y = some p → d.get? x y = some q → p.NoLighter q) →
      ∀ x y i j, c.place? r x y = some i → d.place? r x y = some j → i ≤ j) ∧
    (∀ (c : Canvas) x y p, c.get? x y = some p →
      (c.place? r x y = some (r.size - 1) ↔ p = .white) ∧
      (c.place? r x y = (Canvas.blank c.width c.height).place? r x y ↔ p = .white)) := by
  have level (gray : UInt8) : gray.toNat ≤ 255 := Nat.le_of_lt_succ gray.toNat_lt
  refine ⟨fun gray => ⟨r.toNat_indexWord fits gray, r.indexOfGray_lt (level gray)⟩,
    fun a b darker => r.indexOfGray_mono (UInt8.le_iff_toNat_le.mp darker),
    by rw [GlyphRamp.indexOfGray, Nat.zero_mul], fun gray => ?_, fun short i inside => ?_,
    Pixel.toNat_grayWord, fun c x y => ?_, fun c d darker x y i j => Canvas.place?_mono darker,
    fun c x y p here => ?_⟩
  · rw [r.indexOfGray_eq_last_iff (level gray), ← UInt8.toNat_inj]
    rfl
  · obtain ⟨gray, bound, place⟩ := r.exists_indexOfGray short inside
    have same : (UInt8.ofNat gray).toNat = gray := UInt8.toNat_ofNat_of_lt' (Nat.lt_succ_of_le bound)
    exact ⟨.ofNat gray, by rw [same, place]⟩
  · rw [Canvas.get?_inGlyphs, Canvas.place?, Option.map_map]
    rfl
  · obtain ⟨column, row⟩ := Canvas.inside_of_get? here
    have last := Canvas.place?_eq_last_iff r here
    exact ⟨last, by rw [Canvas.place?_blank r column row, last]⟩

/-- One step below white in the channel that counts least. -/
theorem standard_places_exact :
    255 * GlyphRamp.standard.size < UInt64.size ∧
    (∃ gray : UInt8, GlyphRamp.standard.indexOfGray gray.toNat = 40) ∧
    (Canvas.filled 1 1 ⟨255, 255, 254⟩).get? 0 0 = some ⟨255, 255, 254⟩ ∧
    (Canvas.filled 1 1 ⟨255, 255, 254⟩).place? .standard 0 0 ≠ some 67 := by
  have size : GlyphRamp.standard.size = 68 := by decide
  have fits : 255 * GlyphRamp.standard.size < UInt64.size := by
    rw [size]
    decide
  have here : (Canvas.filled 1 1 ⟨255, 255, 254⟩).get? 0 0 = some ⟨255, 255, 254⟩ := by decide
  obtain ⟨_, _, _, _, each, _, _, _, last⟩ := places_exact .standard fits
  rw [size] at each last
  exact ⟨fits, each (by decide) 40 (by decide), here,
    fun same => absurd ((last _ 0 0 _ here).1.mp same) (by decide)⟩

end LSystem
