import LSystem.Proofs.Terminal.Display
import LSystem.Terminal.Painter

/-! Drawing the changes of a frame. Only what changed is sent, so what is shown is followed from
cell to cell: in front of a column the new row is shown, from there on the old one, where a wide
character that was cut has left a blank. Wherever the pen omits a move the cursor is in place. -/

namespace LSystem.Terminal

/-- Characters of one column, and characters of two with the cell that each reaches over. -/
inductive Tiled : List Cell → Prop where
  | nil : Tiled []
  | narrow {c : Char} (attrs : Attrs) {rest : List Cell} (columns : Text.columns c = 1)
      (tiled : Tiled rest) : Tiled (⟨some c, attrs⟩ :: rest)
  | wide {c : Char} (attrs : Attrs) {rest : List Cell} (columns : Text.columns c = 2)
      (tiled : Tiled rest) : Tiled (⟨some c, attrs⟩ :: .continuation attrs :: rest)

def Frame.WellFormed (f : Frame) : Prop := ∀ row ∈ f.rows, Tiled row

/-- What a display shows of a row, with blanks behind it. -/
def picture (row : List Cell) (j : Nat) : Cell := (row[j]?.map Cell.shown).getD .empty

def rowAt (rows : List (List Cell)) (y : Nat) : List Cell := rows[y]?.getD []

theorem rowAt_tail (rows : List (List Cell)) (i : Nat) :
    rowAt rows.tail i = rowAt rows (i + 1) := by
  simp only [rowAt, List.getElem?_tail]

theorem tiled_rowAt {rows : List (List Cell)} (tiled : ∀ row ∈ rows, Tiled row) (y : Nat) :
    Tiled (rowAt rows y) := by
  unfold rowAt
  cases found : rows[y]? with
  | none => exact .nil
  | some row => exact tiled row (List.mem_of_getElem? found)

/-- The rest of a row behind a cut. -/
def freed : List Cell → List Cell
  | [] => []
  | cell :: rest => (if cell.isContinuation then .empty else cell) :: rest

theorem Tiled.freed_eq {row : List Cell} (tiled : Tiled row) : freed row = row := by
  cases tiled <;> rfl

theorem Tiled.behind_narrow {c : Char} {attrs : Attrs} {rest : List Cell}
    (tiled : Tiled (⟨some c, attrs⟩ :: rest)) (columns : Text.columns c = 1) : Tiled rest := by
  cases tiled with
  | narrow _ _ tiled => exact tiled
  | wide _ two tiled =>
    rw [columns] at two
    contradiction

theorem Tiled.behind_wide {c : Char} {attrs : Attrs} {rest : List Cell}
    (tiled : Tiled (⟨some c, attrs⟩ :: rest)) (columns : Text.columns c = 2) :
    ∃ behind, rest = .continuation attrs :: behind ∧ Tiled behind := by
  cases tiled with
  | narrow _ one tiled =>
    rw [columns] at one
    contradiction
  | wide _ _ tiled => exact ⟨_, rfl, tiled⟩

theorem tail_freed (row : List Cell) : (freed row).tail = row.tail := by
  cases row <;> rfl

theorem Tiled.tail {row : List Cell} (tiled : Tiled row) : Tiled (freed row.tail) := by
  cases tiled with
  | nil => exact .nil
  | narrow attrs columns tiled => exact tiled.freed_eq.symm ▸ tiled
  | wide attrs columns tiled => exact .narrow .plain rfl tiled

theorem freed_tail {row : List Cell} (tiled : Tiled (freed row)) : Tiled (freed row.tail) :=
  tail_freed row ▸ tiled.tail

theorem Tiled.head_shown {row : List Cell} (tiled : Tiled row) :
    (picture row 0).isContinuation = false := by
  cases tiled <;> rfl

theorem picture_drop (row : List Cell) (n j : Nat) :
    picture (row.drop n) j = picture row (n + j) := by
  simp only [picture, List.getElem?_drop]

theorem picture_freed_succ (row : List Cell) (j : Nat) :
    picture (freed row) (j + 1) = picture row (j + 1) := by
  cases row <;> rfl

theorem picture_freed_zero (row : List Cell) :
    picture (freed row) 0 =
      if (picture row 0).isContinuation then .empty else picture row 0 := by
  cases row with
  | nil => rfl
  | cons cell rest =>
    have head : picture (freed (cell :: rest)) 0 =
        (if cell.isContinuation then Cell.empty else cell).shown := rfl
    have same : (picture (cell :: rest) 0).isContinuation = cell.isContinuation := rfl
    rw [head, same]
    split
    · rfl
    · rfl

namespace Display

variable {row : Nat → Cell} {x width : Nat} {cell : Cell}

theorem cover_here : cover row x width cell x = cell := if_pos rfl

theorem cover_second : cover row x 2 cell (x + 1) = .continuation cell.attrs := by
  rw [cover, if_neg (by omega), if_pos (by omega)]

theorem cover_before (whole : (row x).isContinuation = false) {j : Nat} (before : j < x) :
    cover row x width cell j = row j := by
  rw [cover, if_neg (by omega), if_neg (by omega), if_neg]
  rintro (⟨_, cut⟩ | ⟨same, _⟩)
  · rw [whole] at cut
    contradiction
  · omega

/-- Behind a character what was shown stays, but for the other half of what it cuts. -/
theorem cover_behind {old : List Cell} (wide : 0 < width)
    (shows : ∀ j, row (x + j) = picture old j) (j : Nat) :
    cover row x width cell (x + width + j) = picture (freed (old.drop width)) j := by
  have here : row (x + width + j) = picture (old.drop width) j := by
    rw [picture_drop, ← shows, Nat.add_assoc]
  rw [cover, if_neg (by omega), if_neg (by omega), here]
  cases j with
  | zero =>
    rw [picture_freed_zero]
    have first : ¬ x + width + 0 + 1 = x := by omega
    simp only [first, false_and, Nat.add_zero, true_and, false_or]
  | succ j =>
    have first : ¬ x + width + (j + 1) + 1 = x := by omega
    have later : ¬ x + width + (j + 1) = x + width := by omega
    simp only [first, later, false_and, or_false, if_false, picture_freed_succ]

/-- The display is where the pen takes it to be. Of the cursor that is only needed for the columns
that are still to come: behind a wide character the pen is one column short of it. -/
structure Agrees (p : Pen) (d : Display) (x y : Nat) : Prop where
  idle : d.reading = .text
  style : d.style = p.attrs.known
  cursor : ∀ x' y', y < y' ∨ y = y' ∧ x ≤ x' → p.isNext x' y' → d.x = x' ∧ d.y = y'

theorem Agrees.later {p : Pen} {d : Display} {x y x' y' : Nat} (agrees : Agrees p d x y)
    (later : y < y' ∨ y = y' ∧ x ≤ x') : Agrees p d x' y' := by
  refine ⟨agrees.idle, agrees.style, fun x'' y'' behind => agrees.cursor x'' y'' ?_⟩
  omega

theorem Agrees.fresh {d : Display} {x y : Nat} (idle : d.reading = .text)
    (bare : d.style = .plain) : Agrees .fresh d x y := by
  refine ⟨idle, bare, fun x' y' _ next => ?_⟩
  contradiction

theorem run_restyle {d : Display} (idle : d.reading = .text) {old : Attrs}
    (style : d.style = old.known) (new : Attrs) :
    d.run (Pen.restyle old new) = { d with style := new.known } := by
  have stripped : d.run (if old = .plain then [] else [.resetAttrs]) =
      { d with style := .plain } := by
    split
    · next bare =>
      have same : d.style = .plain := by rw [style, bare]; rfl
      rw [run_nil, ← same]
    · rw [run_singleton, read_resetAttrs idle]
  have added : run { d with style := .plain } (if new = .plain then [] else [.addAttrs new]) =
      { d with style := new.known } := by
    split
    · next bare =>
      rw [bare]
      rfl
    · rw [run_singleton, read_addAttrs (d := { d with style := .plain }) idle rfl]
  unfold Pen.restyle
  split
  · next same => rw [run_nil, same, ← style]
  · rw [run_append, stripped, added]

/-- Between two displays a cell has been shown over `width` columns. -/
structure Printed (x y width : Nat) (cell : Cell) (before after : Display) : Prop where
  idle : after.reading = .text
  style : after.style = cell.attrs.known
  column : after.x = x + width
  line : after.y = y
  row : after.rows y = cover (before.rows y) x width cell.shown
  others : ∀ y' ≠ y, after.rows y' = before.rows y'

theorem write_prints {p : Pen} {d : Display} {x y width : Nat} (agrees : Agrees p d x y) {c : Char}
    (columns : Text.columns c = width) (shows : width ≠ 0) (attrs : Attrs) :
    Printed x y width ⟨some c, attrs⟩ d (d.run (p.write ⟨x, y, ⟨some c, attrs⟩⟩).2) := by
  have sent : (p.write ⟨x, y, ⟨some c, attrs⟩⟩).2 =
      (if p.isNext x y then [] else [.moveTo x y]) ++ Pen.restyle p.attrs attrs ++ [.print c] := rfl
  have moved : d.run (if p.isNext x y then [] else [.moveTo x y]) = { d with x, y } := by
    split
    · next follows =>
      obtain ⟨column, line⟩ := agrees.cursor x y (.inr ⟨rfl, Nat.le_refl x⟩) follows
      rw [run_nil, ← column, ← line]
    · rw [run_singleton, read_moveTo agrees.idle]
  have styled := run_restyle (d := { d with x, y }) agrees.idle agrees.style attrs
  have idle : Display.reading { d with x, y, style := attrs.known } = .text := agrees.idle
  subst columns
  rw [sent, run_append, run_append, moved, styled, run_singleton, read_print idle shows]
  simp only [print, if_neg shows]
  refine ⟨agrees.idle, rfl, rfl, rfl, Function.update_self .., fun y' other => ?_⟩
  exact Function.update_of_ne other ..

theorem write_continuation {p : Pen} {x y : Nat} (next : p.isNext x y) (attrs : Attrs) :
    p.write ⟨x, y, .continuation attrs⟩ = ({ p with last := some (x, y) }, []) := by
  simp [Pen.write, Cell.isContinuation, Cell.continuation, next]

theorem Agrees.behind {d : Display} {x y last : Nat} {attrs : Attrs} (idle : d.reading = .text)
    (style : d.style = attrs.known) (column : d.x = x) (line : d.y = y) (short : last < x) :
    Agrees ⟨some (last, y), attrs⟩ d x y := by
  refine ⟨idle, style, fun x' y' later next => ?_⟩
  simp only [Pen.isNext, Bool.and_eq_true, beq_iff_eq] at next
  omega

/-- Between two displays a row has been drawn from column `x` on, and nothing else. -/
structure Drawn (x y : Nat) (new : List Cell) (before after : Display) : Prop where
  cells : ∀ j, after.rows y (x + j) = picture new j
  left : ∀ j < x, after.rows y j = before.rows y j
  others : ∀ y' ≠ y, after.rows y' = before.rows y'

theorem Drawn.cons {x y : Nat} {cell : Cell} {new : List Cell} {d d' d'' : Display}
    (here : d'.rows y x = cell.shown) (left : ∀ j < x, d'.rows y j = d.rows y j)
    (others : ∀ y' ≠ y, d'.rows y' = d.rows y') (rest : Drawn (x + 1) y new d' d'') :
    Drawn x y (cell :: new) d d'' := by
  refine ⟨fun j => ?_, fun j before => ?_, fun y' other => ?_⟩
  · cases j with
    | zero => exact (rest.left x (Nat.lt_succ_self x)).trans here
    | succ j =>
      have shifted := rest.cells j
      rw [Nat.add_assoc, Nat.add_comm 1 j] at shifted
      exact shifted
  · rw [rest.left j (Nat.lt_succ_of_lt before), left j before]
  · rw [rest.others y' other, others y' other]

theorem Drawn.keep {x y : Nat} {cell : Cell} {new : List Cell} {d d' : Display}
    (here : d.rows y x = cell.shown) (rest : Drawn (x + 1) y new d d') :
    Drawn x y (cell :: new) d d' :=
  rest.cons here (fun _ _ => rfl) fun _ _ => rfl

end Display

def Pen.after (p : Pen) (cells : List Placed) : Pen := cells.foldl (fun p d => (p.write d).1) p

theorem Pen.writeAll_append (p : Pen) (a b : List Placed) :
    p.writeAll (a ++ b) = p.writeAll a ++ (p.after a).writeAll b := by
  induction a generalizing p with
  | nil => rfl
  | cons d a ih =>
    simp only [List.cons_append, Pen.writeAll, ih, List.append_assoc]
    rfl

namespace Display

/-- Writing the cells draws the rest of a row, and the pen is ready for the next one. -/
def Draws (p : Pen) (d : Display) (x y : Nat) (cells : List Placed) (new : List Cell) : Prop :=
  Agrees (p.after cells) (d.run (p.writeAll cells)) 0 (y + 1) ∧
    Drawn x y new d (d.run (p.writeAll cells))

theorem Draws.keep {p : Pen} {d : Display} {x y : Nat} {cells : List Placed} {cell : Cell}
    {new : List Cell} (here : d.rows y x = cell.shown) (rest : Draws p d (x + 1) y cells new) :
    Draws p d x y cells (cell :: new) :=
  ⟨rest.1, rest.2.keep here⟩

theorem Draws.write {p : Pen} {d : Display} {x y : Nat} {cells : List Placed} {cell : Cell}
    {new : List Cell} {d' : Display} (written : d.run (p.write ⟨x, y, cell⟩).2 = d')
    (here : d'.rows y x = cell.shown) (left : ∀ j < x, d'.rows y j = d.rows y j)
    (others : ∀ y' ≠ y, d'.rows y' = d.rows y')
    (rest : Draws (p.write ⟨x, y, cell⟩).1 d' (x + 1) y cells new) :
    Draws p d x y (⟨x, y, cell⟩ :: cells) (cell :: new) := by
  have parts : d.run (p.writeAll (⟨x, y, cell⟩ :: cells)) =
      d'.run ((p.write ⟨x, y, cell⟩).1.writeAll cells) := by
    rw [Pen.writeAll, run_append, written]
  obtain ⟨agrees, drawn⟩ := rest
  rw [Draws, parts]
  exact ⟨agrees, drawn.cons here left others⟩

theorem cells_kept {x y : Nat} {old new : List Cell} {cell : Cell} (same : old.head? = some cell) :
    (Changes.ofCells y x old (cell :: new)).cells =
      (Changes.ofCells y (x + 1) old.tail new).cells := by
  simp only [Changes.ofCells, if_pos same]

theorem cells_changed {x y : Nat} {old new : List Cell} {cell : Cell}
    (other : old.head? ≠ some cell) :
    (Changes.ofCells y x old (cell :: new)).cells =
      ⟨x, y, cell⟩ :: (Changes.ofCells y (x + 1) old.tail new).cells := by
  simp only [Changes.ofCells, if_neg other]

theorem Printed.left {x y width : Nat} {cell : Cell} {d d' : Display}
    (printed : Printed x y width cell d d') {old : List Cell} (whole : Tiled old)
    (shows : ∀ j, d.rows y (x + j) = picture old j) : ∀ j < x, d'.rows y j = d.rows y j := by
  intro j before
  have first : (d.rows y x).isContinuation = false := by
    rw [← Nat.add_zero x, shows 0]
    exact whole.head_shown
  rw [printed.row, cover_before first before]

/-- Right behind its character a cell without one costs nothing, whether it has changed or not. -/
theorem continuation_draws {attrs : Attrs} {d : Display} {x y : Nat} {old rest : List Cell}
    (here : d.rows y (x + 1) = (Cell.continuation attrs).shown)
    (draws : ∀ last < x + 2, Draws ⟨some (last, y), attrs⟩ d (x + 1 + 1) y
      (Changes.ofCells y (x + 1 + 1) old.tail rest).cells rest) :
    Draws ⟨some (x, y), attrs⟩ d (x + 1) y
      (Changes.ofCells y (x + 1) old (.continuation attrs :: rest)).cells
      (.continuation attrs :: rest) := by
  by_cases same : old.head? = some (.continuation attrs)
  · rw [cells_kept same]
    exact Draws.keep here (draws x (by omega))
  · rw [cells_changed same]
    have follows : Pen.isNext ⟨some (x, y), attrs⟩ (x + 1) y = true := by simp [Pen.isNext]
    have free := write_continuation follows attrs
    have nothing :
        d.run (Pen.write ⟨some (x, y), attrs⟩ ⟨x + 1, y, .continuation attrs⟩).2 = d := by
      rw [free, run_nil]
    refine Draws.write nothing here (fun _ _ => rfl) (fun _ _ => rfl) ?_
    rw [free]
    exact draws (x + 1) (by omega)

theorem ofCells_draws {new : List Cell} (tiled : Tiled new) {p : Pen} {d : Display} {x y : Nat}
    {old : List Cell} (agrees : Agrees p d x y) (whole : Tiled (freed old))
    (fits : old.length ≤ new.length) (shows : ∀ j, d.rows y (x + j) = picture (freed old) j) :
    Draws p d x y (Changes.ofCells y x old new).cells new := by
  induction tiled generalizing p d x old with
  | nil =>
    have empty : old = [] := List.eq_nil_of_length_eq_zero (Nat.le_zero.mp fits)
    rw [empty] at shows
    exact ⟨agrees.later (.inl (Nat.lt_succ_self y)), shows, fun _ _ => rfl, fun _ _ => rfl⟩
  | @narrow c attrs rest columns tiled ih =>
    have fewer : old.tail.length ≤ rest.length := by
      rw [List.length_tail]
      exact Nat.sub_le_of_le_add fits
    by_cases same : old.head? = some ⟨some c, attrs⟩
    · rw [cells_kept same]
      obtain ⟨behind, rfl⟩ := List.head?_eq_some_iff.mp same
      have aligned := whole.behind_narrow columns
      refine Draws.keep (shows 0) (ih (agrees.later (.inr ⟨rfl, Nat.le_succ x⟩)) ?_ fewer ?_)
      · exact freed_tail whole
      · intro j
        rw [Nat.add_assoc, Nat.add_comm 1 j, shows, List.tail_cons, aligned.freed_eq]
        rfl
    · rw [cells_changed same]
      have printed := write_prints agrees columns Nat.one_ne_zero attrs
      refine Draws.write rfl ?_ (printed.left whole shows) printed.others
        (ih ?_ (freed_tail whole) fewer ?_)
      · rw [printed.row, cover_here]
      · exact .behind printed.idle printed.style printed.column printed.line (Nat.lt_succ_self x)
      · intro j
        rw [printed.row, cover_behind Nat.one_pos shows, List.drop_one, tail_freed]
  | @wide c attrs rest columns tiled ih =>
    have fewer : old.tail.tail.length ≤ rest.length := by
      simp only [List.length_tail, List.length_cons] at fits ⊢
      omega
    by_cases same : old.head? = some ⟨some c, attrs⟩
    · obtain ⟨behind, rfl⟩ := List.head?_eq_some_iff.mp same
      obtain ⟨behind, rfl, aligned⟩ := whole.behind_wide columns
      rw [cells_kept same, cells_kept rfl]
      refine Draws.keep (shows 0) (Draws.keep (shows 1)
        (ih (agrees.later (.inr ⟨rfl, by omega⟩)) ?_ fewer ?_))
      · exact aligned.freed_eq.symm ▸ aligned
      · intro j
        have position : x + 1 + 1 + j = x + (j + 1 + 1) := by omega
        rw [position, shows, List.tail_cons, List.tail_cons, aligned.freed_eq]
        rfl
    · rw [cells_changed same]
      have printed := write_prints agrees columns (by decide) attrs
      refine Draws.write rfl ?_ (printed.left whole shows) printed.others
        (continuation_draws ?_ fun last short => ih ?_ (freed_tail (freed_tail whole)) fewer ?_)
      · rw [printed.row, cover_here]
      · rw [printed.row, cover_second]
        rfl
      · exact .behind printed.idle printed.style printed.column printed.line short
      · intro j
        have behind : (freed old).drop 2 = old.tail.tail := by
          rw [← List.tail_drop, List.drop_one, tail_freed]
        rw [printed.row, ← behind]
        exact cover_behind Nat.two_pos shows j

theorem ofRow_draws {new : List Cell} (tiled : Tiled new) {p : Pen} {d : Display} {y : Nat}
    {old : Option (List Cell)} (agrees : Agrees p d 0 y) (whole : Tiled (old.getD []))
    (fits : (old.getD []).length ≤ new.length) (shows : d.rows y = picture (old.getD [])) :
    Draws p d 0 y (Changes.ofRow y old new).cells new := by
  unfold Changes.ofRow
  split
  · next same =>
    rw [same] at shows
    refine ⟨agrees.later (.inl (Nat.lt_succ_self y)), fun j => ?_, fun _ _ => rfl, fun _ _ => rfl⟩
    rw [Nat.zero_add]
    exact congrFun shows j
  · refine ofCells_draws tiled agrees (whole.freed_eq.symm ▸ whole) fits fun j => ?_
    rw [Nat.zero_add, whole.freed_eq, shows]

/-- Between two displays all rows from row `y` on have been drawn, and those above are the same. -/
structure Painted (y : Nat) (new : List (List Cell)) (before after : Display) : Prop where
  rows : ∀ i, after.rows (y + i) = picture (rowAt new i)
  above : ∀ y' < y, after.rows y' = before.rows y'

theorem Painted.cons {y : Nat} {row : List Cell} {new : List (List Cell)} {d d' d'' : Display}
    (drawn : Drawn 0 y row d d') (rest : Painted (y + 1) new d' d'') :
    Painted y (row :: new) d d'' := by
  refine ⟨fun i => ?_, fun y' before => ?_⟩
  · cases i with
    | zero =>
      funext j
      have cell := drawn.cells j
      rw [Nat.zero_add] at cell
      exact (congrFun (rest.above y (Nat.lt_succ_self y)) j).trans cell
    | succ i =>
      have shifted := rest.rows i
      rw [Nat.add_assoc, Nat.add_comm 1 i] at shifted
      exact shifted
  · rw [rest.above y' (Nat.lt_succ_of_lt before), drawn.others y' (Nat.ne_of_lt before)]

theorem ofRows_paints {new old : List (List Cell)} {p : Pen} {d : Display} {y : Nat}
    (tiled : ∀ row ∈ new, Tiled row) (agrees : Agrees p d 0 y) (whole : ∀ row ∈ old, Tiled row)
    (fits : ∀ i, (rowAt old i).length ≤ (rowAt new i).length)
    (shows : ∀ i, d.rows (y + i) = picture (rowAt old i)) :
    let after := d.run (p.writeAll (Changes.ofRows y old new).cells)
    after.reading = .text ∧ Painted y new d after := by
  induction new generalizing p d y old with
  | nil =>
    refine ⟨agrees.idle, fun i => ?_, fun _ _ => rfl⟩
    have empty : rowAt old i = [] := List.eq_nil_of_length_eq_zero (Nat.le_zero.mp (fits i))
    have stays := shows i
    rw [empty] at stays
    exact stays
  | cons row new ih =>
    have head : old.head?.getD [] = rowAt old 0 := by rw [rowAt, List.head?_eq_getElem?]
    obtain ⟨ready, drawn⟩ : Draws p d 0 y (Changes.ofRow y old.head? row).cells row := by
      refine ofRow_draws (tiled row List.mem_cons_self) agrees ?_ ?_ ?_
      · exact head ▸ tiled_rowAt whole 0
      · exact head ▸ fits 0
      · exact head ▸ shows 0
    have others : ∀ row ∈ new, Tiled row := fun row mem => tiled row (List.mem_cons_of_mem _ mem)
    have below : ∀ row ∈ old.tail, Tiled row := fun row mem => whole row (List.mem_of_mem_tail mem)
    have fits : ∀ i, (rowAt old.tail i).length ≤ (rowAt new i).length := by
      intro i
      rw [rowAt_tail]
      exact fits (i + 1)
    have stay : ∀ i, (d.run (p.writeAll (Changes.ofRow y old.head? row).cells)).rows (y + 1 + i) =
        picture (rowAt old.tail i) := by
      intro i
      rw [drawn.others _ (by omega), rowAt_tail, Nat.add_assoc, Nat.add_comm 1 i, shows]
    obtain ⟨idle, rest⟩ := ih others ready below fits stay
    have cells : (Changes.ofRows y old (row :: new)).cells =
      (Changes.ofRow y old.head? row).cells ++ (Changes.ofRows (y + 1) old.tail new).cells := rfl
    dsimp only
    rw [cells, Pen.writeAll_append, run_append]
    exact ⟨idle, rest.cons drawn⟩

end Display

end LSystem.Terminal
