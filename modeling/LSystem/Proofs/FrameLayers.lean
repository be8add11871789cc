import LSystem.Proofs.PictureSize
import LSystem.Proofs.Terminal.BoundedPainting
import LSystem.Proofs.Terminal.Clipping
import LSystem.Viewer

/-! The layers of a painted frame. From the bottom up there are the status line, the message, the last
lines of the preview and the picture; each row belongs to one of them and is painted at most once, so
it shows its text and nothing else. The rows are computed in words of 16 bits, which hold them for
every size of the screen. -/

namespace LSystem.Viewer

open Terminal

section Lines

variable {f : Frame} {attrs : Attrs} {lines : List String} {y : Nat}

theorem width_paintLines (f : Frame) (attrs : Attrs) (y : Nat) (lines : List String) :
    (paintLines f attrs y lines).width = f.width := congrArg Size.width (size_paintLines ..)

theorem row?_paintLines_other {i : Nat} (apart : i < y ∨ y + lines.length ≤ i) :
    (paintLines f attrs y lines).row? i = f.row? i := by
  induction lines generalizing f y with
  | nil => rfl
  | cons line lines ih =>
    simp only [List.length_cons] at apart
    rw [paintLines, ih (by omega), Frame.row?_paint_other (by omega)]

theorem row?_paintLines {line : String} {i : Nat} (wide : 1 ≤ f.width) (found : lines[i]? = some line)
    (blank : f.row? (y + i) = some (List.replicate f.width .empty)) :
    (paintLines f attrs y lines).row? (y + i) = some (shownRow f.width attrs .plain line) := by
  induction lines generalizing f y i with
  | nil => simp at found
  | cons first lines ih =>
    rw [paintLines]
    cases i with
    | zero =>
      obtain rfl : first = line := by simpa using found
      rw [Nat.add_zero y] at blank ⊢
      rw [row?_paintLines_other (.inl (Nat.lt_succ_self y))]
      exact Frame.row?_paint_blank wide blank first attrs
    | succ i =>
      have next : y + (i + 1) = y + 1 + i := by omega
      rw [next] at blank ⊢
      refine ih wide (by simpa using found) ?_
      rw [Frame.row?_paint_other (by omega)]
      exact blank

end Lines

section Layers

variable (v : Viewer) {f : Frame} {w bottom : Nat}

/-- The lines of the preview that there is room for above row `bottom`. -/
def shownPreview (bottom : Nat) : List String := v.preview.drop (v.preview.length - bottom)

/-- The number of rows that the preview leaves to the picture. -/
def spare (bottom : Nat) : Nat := bottom - (v.shownPreview bottom).length

def picture (w bottom : Nat) : TextImage := v.session.frame w (v.spare bottom)

def paintPreview (f : Frame) (bottom : Nat) : Frame :=
  paintLines f .plain (v.spare bottom) (v.shownPreview bottom)

/-- The frame before the preview and the picture are painted. -/
def footed (w bottom : Nat) : Frame :=
  v.paintMessage (v.paintStatus (.blank w (bottom + 2))) bottom

theorem length_shownPreview (bottom : Nat) :
    (v.shownPreview bottom).length = min v.preview.length bottom := by
  rw [shownPreview, List.length_drop]
  omega

theorem spare_add (bottom : Nat) : v.spare bottom + (v.shownPreview bottom).length = bottom := by
  have fits := v.length_shownPreview bottom
  rw [spare]
  omega

theorem length_picture (wide : 1 ≤ w) (bottom : Nat) :
    (v.picture w bottom).rows.length = v.spare bottom := v.session.length_frame wide _

/-- A picture without rows need not be left out. -/
theorem paintAbove_eq (wide : 1 ≤ f.width) (bottom : Nat) : v.paintAbove f bottom =
    paintLines (v.paintPreview f bottom) .plain 0 (v.picture f.width bottom).rows := by
  have rows := v.length_picture wide bottom
  have shown : v.paintAbove f bottom = if v.spare bottom = 0 then v.paintPreview f bottom else
      paintLines (v.paintPreview f bottom) .plain 0
        (v.picture (v.paintPreview f bottom).width bottom).rows := rfl
  rw [shown]
  split
  · next none =>
    rw [none] at rows
    rw [List.eq_nil_of_length_eq_zero rows, paintLines]
  · rw [paintPreview, width_paintLines]

theorem width_paintMessage (f : Frame) (y : Nat) : (v.paintMessage f y).width = f.width :=
  congrArg Size.width (v.size_paintMessage f y)

theorem height_paint (f : Frame) : (v.paint f).height = f.height :=
  congrArg Size.height (v.size_paint f)

theorem width_footed (w bottom : Nat) : (v.footed w bottom).width = w := v.width_paintMessage _ _

theorem paint_blank (wide : 1 ≤ w) (bottom : Nat) : v.paint (.blank w (bottom + 2)) =
    paintLines (v.paintPreview (v.footed w bottom) bottom) .plain 0 (v.picture w bottom).rows := by
  have some : ¬ (w = 0 ∨ bottom + 2 = 0) := by omega
  have high : ¬ bottom + 2 = 1 := by omega
  have above : v.paint (.blank w (bottom + 2)) = v.paintAbove (v.footed w bottom) bottom :=
    (if_neg some).trans (if_neg high)
  rw [above, paintAbove_eq v (by rwa [width_footed]), width_footed]

theorem row?_paintMessage_other {y i : Nat} (apart : i ≠ y) :
    (v.paintMessage f y).row? i = f.row? i := by
  unfold paintMessage
  split
  · exact Frame.row?_paint_other apart ..
  · rfl

theorem row?_paintStatus_other {i : Nat} (apart : i ≠ f.height - 1) :
    (v.paintStatus f).row? i = f.row? i := by
  rw [paintStatus, Frame.row?_fillRow, Frame.row?_paint_other apart]
  simp [Ne.symm apart]

theorem footed_status (wide : 1 ≤ w) : (v.footed w bottom).row? (bottom + 1) =
    some (shownRow w .inverse .inverse v.session.status) := by
  have blank : (Frame.blank w (bottom + 2)).row? (bottom + 1) = some (List.replicate w .empty) :=
    Frame.row?_blank (by omega)
  have painted := Frame.row?_paint_blank wide blank v.session.status .inverse
  have status : (v.paintStatus (.blank w (bottom + 2))).row? (bottom + 1) =
      some ((shownRow w .inverse .plain v.session.status).map ({ · with attrs := .inverse })) := by
    rw [paintStatus, Frame.row?_fillRow]
    change Option.map _ (((Frame.blank w (bottom + 2)).paint 0 (bottom + 1) _ _).row? _) = _
    rw [painted]
    exact congrArg some (if_pos rfl)
  rw [footed, row?_paintMessage_other v (by omega), status, restyle_shownRow]

theorem footed_message (wide : 1 ≤ w) : (v.footed w bottom).row? bottom =
    some (v.message.elim (List.replicate w .empty) (shownRow w .bold .plain)) := by
  have blank : (v.paintStatus (.blank w (bottom + 2))).row? bottom =
      some (List.replicate w .empty) := by
    rw [row?_paintStatus_other v (Nat.ne_of_lt (Nat.lt_succ_self bottom))]
    exact Frame.row?_blank (by omega)
  rw [footed, paintMessage]
  cases v.message with
  | none => exact blank
  | some message => exact Frame.row?_paint_blank wide blank message .bold

theorem footed_above {y : Nat} (above : y < bottom) :
    (v.footed w bottom).row? y = some (List.replicate w .empty) := by
  have apart : y ≠ (Frame.blank w (bottom + 2)).height - 1 := by
    change y ≠ bottom + 2 - 1
    omega
  rw [footed, row?_paintMessage_other v (Nat.ne_of_lt above), row?_paintStatus_other v apart]
  exact Frame.row?_blank (by omega)

variable {v} (wide : 1 ≤ w)
include wide

theorem row?_paint_foot {y : Nat} (below : bottom ≤ y) :
    (v.paint (.blank w (bottom + 2))).row? y = (v.footed w bottom).row? y := by
  have rows := v.length_picture wide bottom
  have fits := v.spare_add bottom
  rw [paint_blank v wide, row?_paintLines_other (.inr (by omega)), paintPreview,
    row?_paintLines_other (.inr (by omega))]

theorem row?_paint_preview {i : Nat} {line : String} (found : (v.shownPreview bottom)[i]? = some line) :
    (v.paint (.blank w (bottom + 2))).row? (v.spare bottom + i) =
      some (shownRow w .plain .plain line) := by
  have rows := v.length_picture wide bottom
  have fits := v.spare_add bottom
  have inside := (List.getElem?_eq_some_iff.mp found).1
  have blank := v.footed_above (w := w) (show v.spare bottom + i < bottom by omega)
  rw [paint_blank v wide, row?_paintLines_other (.inr (by omega)), paintPreview]
  refine (row?_paintLines ?_ found ?_).trans (by rw [width_footed])
  · rwa [width_footed]
  · rwa [width_footed]

/-- The lines of the preview are shown from the last one upwards. -/
theorem row?_paint_line {j y : Nat} {line : String} (found : v.preview[j]? = some line)
    (place : j + bottom = v.preview.length + y) :
    (v.paint (.blank w (bottom + 2))).row? y = some (shownRow w .plain .plain line) := by
  have inside := (List.getElem?_eq_some_iff.mp found).1
  have length := v.length_shownPreview bottom
  have shown : (v.shownPreview bottom)[j - (v.preview.length - bottom)]? = some line := by
    rw [shownPreview, List.getElem?_drop, Nat.add_sub_cancel' (by omega)]
    exact found
  have row : y = v.spare bottom + (j - (v.preview.length - bottom)) := by
    rw [spare]
    omega
  rw [row]
  exact row?_paint_preview wide shown

theorem row?_paint_picture {y : Nat} {line : String} (found : (v.picture w bottom).rows[y]? = some line) :
    (v.paint (.blank w (bottom + 2))).row? y = some (shownRow w .plain .plain line) := by
  have rows := v.length_picture wide bottom
  have fits := v.spare_add bottom
  have inside := (List.getElem?_eq_some_iff.mp found).1
  have width : (v.paintPreview (v.footed w bottom) bottom).width = w := by
    rw [paintPreview, width_paintLines, width_footed]
  have blank : (v.paintPreview (v.footed w bottom) bottom).row? (0 + y) =
      some (List.replicate w .empty) := by
    rw [Nat.zero_add, paintPreview, row?_paintLines_other (.inl (by omega))]
    exact v.footed_above (by omega)
  rw [paint_blank v wide, ← Nat.zero_add y]
  refine (row?_paintLines ?_ found ?_).trans (by rw [width])
  · rwa [width]
  · rwa [width]

theorem paint_paired (v : Viewer) (bottom : Nat) : (v.paint (.blank w (bottom + 2))).Paired := by
  intro row mem
  obtain ⟨y, here⟩ := List.mem_iff_getElem?.mp mem
  change (v.paint (.blank w (bottom + 2))).row? y = some row at here
  have rows := v.length_picture wide bottom
  have fits := v.spare_add bottom
  have high : y < bottom + 2 := by
    have inside := (List.getElem?_eq_some_iff.mp here).1
    rwa [Frame.length_rows, height_paint] at inside
  -- Every row is in one of the layers, here from the top down, and shows one text.
  obtain picture | preview | message | status : y < v.spare bottom ∨
      (∃ i < (v.shownPreview bottom).length, y = v.spare bottom + i) ∨ y = bottom ∨
      y = bottom + 1 := by
    by_cases above : y < v.spare bottom
    · exact .inl above
    · by_cases below : y < bottom
      · exact .inr (.inl ⟨y - v.spare bottom, by omega⟩)
      · exact .inr (.inr (by omega))
  · have found := List.getElem?_eq_getElem (show y < (v.picture w bottom).rows.length by omega)
    rw [row?_paint_picture wide found] at here
    cases here
    exact paired_shownRow _ _ _ _
  · obtain ⟨i, inside, rfl⟩ := preview
    rw [row?_paint_preview wide (List.getElem?_eq_getElem inside)] at here
    cases here
    exact paired_shownRow _ _ _ _
  · rw [row?_paint_foot wide (by omega), message, footed_message v wide] at here
    cases here
    cases v.message with
    | none => exact paired_blank w
    | some message => exact paired_shownRow _ _ _ _
  · rw [row?_paint_foot wide (by omega), status, footed_status v wide] at here
    cases here
    exact paired_shownRow _ _ _ _

end Layers

section Words

/-- Paints each line into its row. -/
def paintRows? (attrs : Attrs) : Frame → List (Nat × String) → Option Frame
  | f, [] => some f
  | f, (y, line) :: rows => do
    let (painted, _) ← f.paint? 0 y line attrs
    paintRows? attrs painted rows

def paintStatus? (v : Viewer) (f : Frame) (y : Nat) : Option Frame := do
  let (painted, _) ← f.paint? 0 y v.session.status .inverse
  painted.fillRow? y .inverse

def paintMessage? (v : Viewer) (f : Frame) (y : Nat) : Option Frame :=
  match v.message with
  | some message => (f.paint? 0 y message .bold).map Prod.fst
  | none => some f

def paintAbove? (v : Viewer) (f : Frame) (bottom : Nat) : Option Frame := do
  let top := bottom - (within? sideLimit (v.shownPreview bottom).length).getD sideLimit
  let painted ← paintRows? .plain f ((List.range' top (bottom - top)).zip (v.shownPreview bottom))
  if top = 0 then return painted
  else paintRows? .plain painted ((List.range top).zip (v.session.frame f.width top).rows)

/-- Paints all, unless a word does not hold the number of a row, a column or a cell. -/
def paint? (v : Viewer) (f : Frame) : Option Frame :=
  if f.width = 0 ∨ f.height = 0 then some f
  else do
    let statusRow ← minus? f.height 1
    let painted ← v.paintStatus? f statusRow
    match minus? statusRow 1 with
    | none => return painted
    | some messageRow => do
      let painted ← v.paintMessage? painted messageRow
      v.paintAbove? painted messageRow

variable {f : Frame} (bounded : f.Bounded)
include bounded

theorem paintRows?_eq (attrs : Attrs) (y : Nat) (lines : List String) :
    paintRows? attrs f ((List.range' y lines.length).zip lines) =
      some (paintLines f attrs y lines) := by
  induction lines generalizing f y with
  | nil => rfl
  | cons line lines ih =>
    have later : (f.paint 0 y line attrs).Bounded := bounded.of_size rfl
    simp [List.range'_succ, paintRows?, Frame.paint?_eq bounded, ih later, paintLines]

variable (v : Viewer)

theorem paintStatus?_eq : v.paintStatus? f (f.height - 1) = some (v.paintStatus f) := by
  have later : (f.paint 0 (f.height - 1) v.session.status .inverse).Bounded := bounded.of_size rfl
  simp [paintStatus?, Frame.paint?_eq bounded, Frame.fillRow?_eq later, paintStatus]

theorem paintMessage?_eq (y : Nat) : v.paintMessage? f y = some (v.paintMessage f y) := by
  cases told : v.message with
  | none => simp [paintMessage?, paintMessage, told]
  | some message => simp [paintMessage?, paintMessage, told, Frame.paint?_eq bounded]

theorem paintAbove?_eq (wide : 1 ≤ f.width) {bottom : Nat} (low : bottom ≤ sideLimit) :
    v.paintAbove? f bottom = some (v.paintAbove f bottom) := by
  have fits := v.spare_add bottom
  have top : bottom - (within? sideLimit (v.shownPreview bottom).length).getD sideLimit =
      v.spare bottom := by
    rw [within?_of_le (by omega)]
    rfl
  have rows : bottom - v.spare bottom = (v.shownPreview bottom).length := by omega
  have preview : paintRows? .plain f ((List.range' (v.spare bottom) (bottom - v.spare bottom)).zip
      (v.shownPreview bottom)) = some (v.paintPreview f bottom) := by
    rw [rows]
    exact paintRows?_eq bounded ..
  have later : (v.paintPreview f bottom).Bounded := bounded.of_size (size_paintLines ..)
  have picture : paintRows? .plain (v.paintPreview f bottom)
      ((List.range (v.spare bottom)).zip (v.picture f.width bottom).rows) =
        some (v.paintAbove f bottom) := by
    rw [paintAbove_eq v wide, ← v.length_picture wide bottom, List.range_eq_range']
    exact paintRows?_eq later ..
  rw [← picture]
  simp only [paintAbove?, top, preview, Option.bind_eq_bind, Option.bind_some]
  split
  · next none =>
    rw [none]
    rfl
  · rfl

theorem paint?_eq : v.paint? f = some (v.paint f) := by
  unfold paint? paint
  split
  · rfl
  · next some =>
    have later : (v.paintStatus f).Bounded := bounded.of_size rfl
    have told : (v.paintMessage (v.paintStatus f) (f.height - 2)).Bounded :=
      later.of_size (v.size_paintMessage _ _)
    have first : minus? f.height 1 = Option.some (f.height - 1) := minus?_of_le (by omega)
    simp only [first, paintStatus?_eq bounded, Option.bind_eq_bind, Option.bind_some]
    by_cases single : f.height = 1
    · simp [single, minus?]
    · have second : minus? (f.height - 1) 1 = Option.some (f.height - 2) := minus?_of_le (by omega)
      have wide : 1 ≤ (v.paintMessage (v.paintStatus f) (f.height - 2)).width := by
        rw [width_paintMessage]
        change 1 ≤ f.width
        omega
      simp only [second, if_neg single, paintMessage?_eq later, Option.bind_some]
      exact paintAbove?_eq told v wide (Nat.le_trans (Nat.sub_le _ _) bounded.height)

end Words

/-- A frame that was cleared is painted row by row. Below are the status line and the message, above
them the last lines of the preview, and the picture has the rows that are left. No row cuts a wide
character in two. Whatever the size of a frame, each number that painting computes fits its word. -/
theorem paint_layers (v : Viewer) :
    (∀ w h, 1 ≤ w → 2 ≤ h →
      let painted := v.paint (.blank w h)
      let k := min v.preview.length (h - 2)
      let picture := v.session.frame w (h - 2 - k)
      painted.size = ⟨w, h⟩ ∧
      painted.row? (h - 1) = some (shownRow w .inverse .inverse v.session.status) ∧
      (∀ cell ∈ shownRow w .inverse .inverse v.session.status, cell.attrs = .inverse) ∧
      painted.row? (h - 2) =
        some (v.message.elim (List.replicate w .empty) (shownRow w .bold .plain)) ∧
      (∀ i < k, ∃ line, v.preview[v.preview.length - k + i]? = some line ∧
        painted.row? (h - 2 - k + i) = some (shownRow w .plain .plain line)) ∧
      picture.rows.length = h - 2 - k ∧
      (∀ y < h - 2 - k, ∃ line, picture.rows[y]? = some line ∧
        painted.row? y = some (shownRow w .plain .plain line)) ∧
      painted.Paired) ∧
    ∀ f : Frame, f.Bounded → v.paint? f = some (v.paint f) := by
  refine ⟨fun w h wide high => ?_, fun f bounded => paint?_eq bounded v⟩
  obtain ⟨bottom, rfl⟩ := Nat.exists_eq_add_of_le' high
  intro painted k picture
  have spare : v.spare bottom = bottom - k := congrArg (bottom - ·) (v.length_shownPreview bottom)
  have rows : picture.rows.length = bottom - k := v.session.length_frame wide _
  refine ⟨v.size_paint _, ?_, attrs_shownRow _ _ _, ?_, fun i inside => ?_, rows, fun y above => ?_,
    paint_paired wide v bottom⟩
  · exact (row?_paint_foot wide (Nat.le_succ bottom)).trans (v.footed_status wide)
  · exact (row?_paint_foot wide (Nat.le_refl bottom)).trans (v.footed_message wide)
  · have found := List.getElem?_eq_getElem
      (show v.preview.length - k + i < v.preview.length by omega)
    exact ⟨_, found, row?_paint_line wide found (by omega)⟩
  · have found := List.getElem?_eq_getElem (rows.symm ▸ above)
    have same : picture = v.picture w bottom := congrArg (v.session.frame w) spare.symm
    exact ⟨_, found, row?_paint_picture wide (same ▸ found)⟩

/-- In six rows the field rows of the dragon curve leave no room to its expansions. -/
theorem dragon_layers :
    let s : Session :=
      ⟨{ iterations := 0 }, .initial .seeded { iterations := 0 } 1, ⟨⟨1, 0, 0⟩, "F"⟩⟩
    let v : Viewer := ⟨s, .edit, none⟩
    let painted := v.paint (.blank 20 6)
    painted.row? 2 = some (shownRow 20 .plain .plain " F -> F+G") ∧ painted.Paired ∧
    v.paint? (.blank 20 6) = some painted := by
  intro s v painted
  obtain ⟨layers, words⟩ := paint_layers v
  obtain ⟨_, _, _, _, preview, _, _, paired⟩ := layers 20 6 (by decide) (by decide)
  have length : v.preview.length = 7 := by decide +kernel
  rw [length] at preview
  obtain ⟨line, found, shown⟩ := preview 2 (by decide)
  have fields : v.preview[5]? = some " F -> F+G" := by decide +kernel
  cases fields.symm.trans found
  exact ⟨shown, paired, words _ ⟨by decide, by decide⟩⟩

end LSystem.Viewer
