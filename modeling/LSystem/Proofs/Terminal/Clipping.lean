import LSystem.Proofs.Terminal.Overpainting

/-! What a line of text shows in a row. Its characters stand side by side, each in the columns that it
takes, as far as the row reaches; only at the right edge a wide character can be cut, and is a blank
then. The row is given as a whole, so that a frame can be described row by row. -/

namespace LSystem.Terminal

def cellsOf (attrs : Attrs) (c : Char) : List Cell :=
  match Text.columns c with
  | 0 => []
  | 2 => [⟨some c, attrs⟩, .continuation attrs]
  | _ => [⟨some c, attrs⟩]

/-- The first `room` cells, with a blank for a wide character that has only half of its room. -/
def clip (attrs : Attrs) : (room : Nat) → List Cell → List Cell
  | 0, _ => []
  | room + 1, cells =>
    if Continues cells (room + 1) then cells.take room ++ [⟨some ' ', attrs⟩]
    else cells.take (room + 1)

/-- The row that shows a text in `attrs`, and behind it blanks in `rest`. -/
def shownRow (width : Nat) (attrs rest : Attrs) (text : String) : List Cell :=
  let cells := clip attrs width (text.toList.flatMap (cellsOf attrs))
  cells ++ List.replicate (width - cells.length) ⟨some ' ', rest⟩

section

variable {attrs : Attrs} {cell : Cell} {cells : List Cell} {room : Nat} {c : Char} {text : List Char}

theorem continues_cons (x : Nat) : Continues (cell :: cells) (x + 1) ↔ Continues cells x := Iff.rfl

theorem clip_cons (whole : room = 0 → ¬ Continues cells 0) :
    clip attrs (room + 1) (cell :: cells) = cell :: clip attrs room cells := by
  cases room with
  | zero => simp [clip, continues_cons, whole rfl]
  | succ room =>
    by_cases cut : Continues cells (room + 1)
    · simp [clip, continues_cons, cut]
    · simp [clip, continues_cons, cut]

theorem clip_half (half : Continues cells 0) :
    clip attrs 1 (cell :: cells) = [⟨some ' ', attrs⟩] := by
  simp [clip, continues_cons, half]

/-- A text never begins in the middle of a character. -/
theorem not_continues_text (attrs : Attrs) (text : List Char) :
    ¬ Continues (text.flatMap (cellsOf attrs)) 0 := by
  induction text with
  | nil => simp [Continues]
  | cons c text ih =>
    rw [List.flatMap_cons, cellsOf]
    split
    · exact ih
    · simp [Continues, Cell.continuation]
    · simp [Continues, Cell.continuation]

theorem layout_eq_clip (attrs : Attrs) (room : Nat) (text : List Char) :
    layout attrs room text = clip attrs room (text.flatMap (cellsOf attrs)) := by
  fun_induction layout attrs room text with
  | case1 room =>
    cases room with
    | zero => rfl
    | succ room => simp [clip, Continues]
  | case2 => rfl
  | case3 room c text none ih => simpa [cellsOf, none] using ih
  | case4 c text wide =>
    have half : Continues (.continuation attrs :: text.flatMap (cellsOf attrs)) 0 := ⟨attrs, rfl⟩
    simp only [List.flatMap_cons, cellsOf, wide, List.cons_append, List.nil_append]
    exact (clip_half half).symm
  | case5 c text wide room ih =>
    simp only [List.flatMap_cons, cellsOf, wide, List.cons_append, List.nil_append]
    rw [clip_cons (fun none => absurd none room.succ_ne_zero),
      clip_cons (fun _ => not_continues_text attrs text), ih]
  | case6 room c text some other ih =>
    have single : cellsOf attrs c = [⟨Option.some c, attrs⟩] := by
      unfold cellsOf
      split <;> simp_all
    simp only [List.flatMap_cons, single, List.cons_append, List.nil_append]
    rw [clip_cons (fun _ => not_continues_text attrs text), ih]

theorem attrs_layout (attrs : Attrs) (room : Nat) (text : List Char) :
    ∀ cell ∈ layout attrs room text, cell.attrs = attrs := by
  fun_induction layout attrs room text with
  | case1 | case2 => simp
  | case3 _ _ _ _ ih => exact ih
  | case4 => simp
  | case5 _ _ _ _ ih => simpa [Cell.continuation] using ih
  | case6 _ _ _ _ _ ih => simpa using ih

end

theorem shownRow_eq (width : Nat) (attrs rest : Attrs) (text : String) :
    shownRow width attrs rest text =
      splice (List.replicate width ⟨some ' ', rest⟩) 0 (layout attrs width text.toList) := by
  simp [shownRow, splice, layout_eq_clip]

theorem paired_blanks (width : Nat) (rest : Attrs) :
    Paired (List.replicate width ⟨some ' ', rest⟩) := by
  have restyled := paired_restyle (paired_blank width) rest
  rwa [List.map_replicate] at restyled

theorem paired_shownRow (width : Nat) (attrs rest : Attrs) (text : String) :
    Paired (shownRow width attrs rest text) := by
  have fits := length_layout_le attrs width text.toList
  rw [shownRow_eq]
  refine paired_splice (by simpa using fits) (paired_blanks width rest) (paired_layout _ _ _) ?_
  rintro ⟨_, ⟨k, here⟩ | ⟨k, here⟩⟩
  · cases List.eq_of_mem_replicate (List.mem_of_getElem? here)
  · cases List.eq_of_mem_replicate (List.mem_of_getElem? here)

theorem restyle_shownRow (width : Nat) (attrs : Attrs) (text : String) :
    (shownRow width attrs .plain text).map ({ · with attrs }) = shownRow width attrs attrs text := by
  have own : (layout attrs width text.toList).map ({ · with attrs }) =
      layout attrs width text.toList := by
    refine (List.map_congr_left fun cell mem => ?_).trans (List.map_id _)
    rw [← attrs_layout attrs width text.toList cell mem]
    rfl
  simp only [shownRow_eq, splice, List.take_zero, List.nil_append, List.map_append, own,
    List.map_drop, List.map_replicate]

theorem attrs_shownRow (width : Nat) (attrs : Attrs) (text : String) :
    ∀ cell ∈ shownRow width attrs attrs text, cell.attrs = attrs := by
  rw [← restyle_shownRow]
  simp

theorem shownRow_first {width : Nat} (wide : 1 ≤ width) {c : Char} (narrow : Text.columns c = 1)
    {text : String} (first : text.toList.head? = some c) (attrs rest : Attrs) :
    (shownRow width attrs rest text)[0]? = some ⟨some c, attrs⟩ := by
  obtain ⟨width, rfl⟩ := Nat.exists_eq_add_of_le' wide
  obtain ⟨text, chars⟩ := List.head?_eq_some_iff.mp first
  simp [shownRow_eq, splice, chars, layout, narrow]

theorem shownRow_ne {width : Nat} (wide : 1 ≤ width) {c d : Char} (narrow : Text.columns c = 1)
    (small : Text.columns d = 1) (apart : c ≠ d) {text other : String}
    (first : text.toList.head? = some c) (start : other.toList.head? = some d) (attrs rest : Attrs) :
    shownRow width attrs rest text ≠ shownRow width attrs rest other := by
  intro same
  have cells := (shownRow_first wide narrow first attrs rest).symm.trans
    (congrArg (·[0]?) same |>.trans (shownRow_first wide small start attrs rest))
  cases cells
  exact apart rfl

namespace Frame

variable {f : Frame} {y : Nat}

theorem row?_paint_other {i : Nat} (apart : i ≠ y) (x : Nat) (text : String) (attrs : Attrs) :
    (f.paint x y text attrs).row? i = f.row? i := by
  rw [paint, row?_modifyRow]
  simp [Ne.symm apart]

/-- A text painted into a row that is still blank. -/
theorem row?_paint_blank (wide : 1 ≤ f.width)
    (blank : f.row? y = some (List.replicate f.width .empty)) (text : String) (attrs : Attrs) :
    (f.paint 0 y text attrs).row? y = some (shownRow f.width attrs .plain text) := by
  have inside : y < f.height := by
    rw [← f.length_rows]
    exact (List.getElem?_eq_some_iff.mp blank).1
  rw [paint, row?_modifyRow, blank, Option.map_some, if_pos rfl, if_pos (by omega), shownRow_eq,
    laidOut, room, if_pos inside, Nat.sub_zero]
  rfl

theorem row?_fillRow (attrs : Attrs) (i : Nat) : (f.fillRow y attrs).row? i =
    (f.row? i).map fun row => if y = i then row.map ({ · with attrs }) else row := by
  rw [fillRow, row?_modifyRow]

theorem row?_blank {width height : Nat} (inside : y < height) :
    (blank width height).row? y = some (List.replicate width .empty) :=
  List.getElem?_replicate_of_lt inside

end Frame

example : shownRow 4 .bold .plain "a界界b" =
    [⟨some 'a', .bold⟩, ⟨some '界', .bold⟩, .continuation .bold, ⟨some ' ', .bold⟩] := by
  decide +kernel

end LSystem.Terminal
