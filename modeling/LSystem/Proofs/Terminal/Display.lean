import LSystem.Proofs.Text.Utf8
import LSystem.Terminal.Command
import LSystem.Text.Columns
import Mathlib.Logic.Function.Basic

/-! A terminal, as far as a picture depends on it. Characters are shown at the cursor; escape
sequences move the cursor, blank the screen and change the style. The screen has no edges. What a
command is sent as has the effect that the command names. -/

namespace LSystem.Terminal

/-- The attributes among `a` that a terminal knows. -/
def Attrs.known (a : Attrs) : Attrs :=
  ⟨a.bits &&& (((bold.union dim).union underline).union inverse).bits⟩

/-- What a terminal shows of a cell. -/
def Cell.shown (c : Cell) : Cell := { c with attrs := c.attrs.known }

/-- What the characters that were read last have begun. -/
inductive Reading where
  | text
  | escape
  | sequence (body : List Char)
deriving DecidableEq

/-- A screen by rows and columns, the cursor, and the attributes that are on. -/
structure Display where
  rows : Nat → Nat → Cell
  x : Nat
  y : Nat
  style : Attrs
  reading : Reading

namespace Display

/-- The row in which a cell is put over `width` columns from `x` on. The other half of a wide
character that is cut becomes a blank. -/
def cover (row : Nat → Cell) (x width : Nat) (cell : Cell) : Nat → Cell := fun j =>
  if j = x then cell
  else if x < j ∧ j < x + width then .continuation cell.attrs
  else if (j + 1 = x ∧ (row x).isContinuation) ∨ (j = x + width ∧ (row j).isContinuation) then
    .empty
  else row j

/-- Shows a character. One of no column changes nothing. -/
def print (d : Display) (c : Char) : Display :=
  let width := Text.columns c
  if width = 0 then d
  else
    { d with
      rows := Function.update d.rows d.y (cover (d.rows d.y) d.x width ⟨some c, d.style⟩)
      x := d.x + width }

/-- The numbers that semicolons separate; a missing one is 0. -/
def parameters (body : List Char) : List Nat :=
  (body.splitOn ';').map fun digits => Nat.ofDigitChars 10 digits 0

def restyled (style : Attrs) : Nat → Attrs
  | 0 => .plain
  | 1 => style.union .bold
  | 2 => style.union .dim
  | 4 => style.union .underline
  | 7 => style.union .inverse
  | _ => style

/-- Obeys an escape sequence. Positions count from 1, and what is not understood is dropped. -/
def obey (d : Display) (body : List Char) (final : Char) : Display :=
  match final with
  | 'H' =>
    { d with
      x := (parameters body)[1]?.getD 0 - 1
      y := (parameters body)[0]?.getD 0 - 1 }
  | 'J' => if body = ['2'] then { d with rows := fun _ _ => .empty } else d
  | 'm' => { d with style := (parameters body).foldl restyled d.style }
  | _ => d

def isFinal (c : Char) : Bool := '@' ≤ c && c ≤ '~'

def take (d : Display) (c : Char) : Display :=
  match d.reading with
  | .text => if c = '\x1b' then { d with reading := .escape } else d.print c
  | .escape => { d with reading := if c = '[' then .sequence [] else .text }
  | .sequence body =>
    if isFinal c then { d with reading := .text }.obey body c
    else { d with reading := .sequence (body ++ [c]) }

def read (d : Display) (text : List Char) : Display := text.foldl take d

def receive (d : Display) (bytes : List UInt8) : Display := d.read (Text.Utf8.lossy bytes)

theorem read_append (d : Display) (a b : List Char) : d.read (a ++ b) = (d.read a).read b :=
  List.foldl_append

theorem receive_encode (d : Display) (text : List Char) :
    d.receive (Text.Utf8.encode text) = d.read text := by
  rw [receive, Text.Utf8.lossy_encode]

theorem read_body {d : Display} (body more : List Char) (open_ : d.reading = .sequence body)
    (inner : ∀ c ∈ more, ¬ isFinal c) :
    d.read more = { d with reading := .sequence (body ++ more) } := by
  induction more generalizing d body with
  | nil => rw [List.append_nil, ← open_, read, List.foldl_nil]
  | cons c more ih =>
    have next : d.take c = { d with reading := .sequence (body ++ [c]) } := by
      simp only [take, open_, if_neg (inner c List.mem_cons_self)]
    have again : (d.take c).reading = .sequence (body ++ [c]) := by rw [next]
    have rest := ih (body ++ [c]) again fun c mem => inner c (List.mem_cons_of_mem _ mem)
    rw [List.append_assoc, List.singleton_append, next] at rest
    rw [read, List.foldl_cons, next]
    exact rest

theorem read_sequence {d : Display} (idle : d.reading = .text) (body : List Char) (final : Char)
    (inner : ∀ c ∈ body, ¬ isFinal c) (ends : isFinal final) :
    d.read (Command.introducer.toList ++ body ++ [final]) = d.obey body final := by
  have opened : d.read Command.introducer.toList = { d with reading := .sequence [] } := by
    have chars : Command.introducer.toList = ['\x1b', '['] := rfl
    simp only [chars, read, List.foldl_cons, List.foldl_nil, take, idle, if_true]
  have back : { d with reading := .text } = d := by rw [← idle]
  rw [read_append, read_append, opened, read_body _ _ rfl inner]
  simp only [read, List.foldl_cons, List.foldl_nil, take, if_pos ends, List.nil_append, back]

def written (numbers : List Nat) : List Char := [';'].intercalate (numbers.map (Nat.toDigits 10))

theorem isDigit_of_mem_digits {n : Nat} {c : Char} (mem : c ∈ Nat.toDigits 10 n) :
    c.isDigit := Nat.isDigit_of_mem_toDigits (by decide) (by decide) mem

theorem parameters_written {numbers : List Nat} (some : numbers ≠ []) :
    parameters (written numbers) = numbers := by
  have apart : ∀ digits ∈ numbers.map (Nat.toDigits 10), ';' ∉ digits := by
    intro digits mem separator
    obtain ⟨n, _, rfl⟩ := List.mem_map.mp mem
    exact absurd (isDigit_of_mem_digits separator) (by decide)
  rw [parameters, written, List.splitOn_intercalate _ apart (by simpa using some), List.map_map]
  have each : (fun digits => Nat.ofDigitChars 10 digits 0) ∘ Nat.toDigits 10 = id :=
    funext fun n => Nat.ofDigitChars_ten_toDigits
  rw [each, List.map_id]

theorem digits_inner (n : Nat) : ∀ c ∈ Nat.toDigits 10 n, ¬ isFinal c := by
  intro c mem final
  have digit := isDigit_of_mem_digits mem
  simp only [isFinal, Char.isDigit, Bool.and_eq_true, decide_eq_true_eq] at final digit
  have above : 0x40 ≤ c.toNat := final.1
  have below : c.toNat ≤ 0x39 := digit.2
  omega

theorem written_inner (numbers : List Nat) : ∀ c ∈ written numbers, ¬ isFinal c := by
  induction numbers with
  | nil => exact nofun
  | cons n numbers ih =>
    cases numbers with
    | nil =>
      rw [written, List.map_singleton, List.intercalate_singleton]
      exact digits_inner n
    | cons m numbers =>
      have parts : written (n :: m :: numbers) =
          Nat.toDigits 10 n ++ [';'] ++ written (m :: numbers) := List.intercalate_cons_cons
      rw [parts]
      intro c mem
      rcases List.mem_append.mp mem with first | later
      · rcases List.mem_append.mp first with digit | separator
        · exact digits_inner n c digit
        · rw [List.mem_singleton.mp separator]
          decide
      · exact ih c later

theorem read_numbers {d : Display} (idle : d.reading = .text) (numbers : List Nat) {final : Char}
    (ends : isFinal final) :
    d.read (Command.introducer.toList ++ written numbers ++ [final]) =
      d.obey (written numbers) final :=
  read_sequence idle _ _ (written_inner numbers) ends

theorem read_moveTo {d : Display} (idle : d.reading = .text) (x y : Nat) :
    d.read (Command.moveTo x y).text.toList = { d with x, y } := by
  have text : (Command.moveTo x y).text.toList =
      Command.introducer.toList ++ written [y + 1, x + 1] ++ ['H'] := by
    simp [Command.text, written]
  rw [text, read_numbers idle _ rfl]
  simp only [obey, parameters_written (List.cons_ne_nil _ _)]
  rfl

theorem read_clearScreen {d : Display} (idle : d.reading = .text) :
    d.read Command.clearScreen.text.toList = { d with rows := fun _ _ => .empty } :=
  read_sequence idle ['2'] 'J' (by simp [isFinal]) rfl

theorem read_resetAttrs {d : Display} (idle : d.reading = .text) :
    d.read Command.resetAttrs.text.toList = { d with style := .plain } :=
  read_sequence idle ['0'] 'm' (by simp [isFinal]) rfl

theorem read_beginSync {d : Display} (idle : d.reading = .text) :
    d.read Command.beginSync.text.toList = d :=
  read_sequence idle ['?', '2', '0', '2', '6'] 'h' (by simp [isFinal]) rfl

theorem read_endSync {d : Display} (idle : d.reading = .text) :
    d.read Command.endSync.text.toList = d :=
  read_sequence idle ['?', '2', '0', '2', '6'] 'l' (by simp [isFinal]) rfl

def styleCodes : List (Attrs × Nat) := [(.bold, 1), (.dim, 2), (.underline, 4), (.inverse, 7)]

def codesOf (attrs : Attrs) : List Nat :=
  (styleCodes.filter fun e => attrs.contains e.1).map Prod.snd

theorem toList_codes (attrs : Attrs) :
    (Command.codes attrs).map String.toList = (codesOf attrs).map (Nat.toDigits 10) := by
  simp only [Command.codes, Command.attrCodes, codesOf, styleCodes, List.filter_cons]
  repeat' split
  all_goals rfl

theorem restyled_codesOf (attrs : Attrs) : (codesOf attrs).foldl restyled .plain = attrs.known := by
  have each : ∀ n < 256, (codesOf ⟨UInt8.ofNat n⟩).foldl restyled .plain =
      Attrs.known ⟨UInt8.ofNat n⟩ := by decide +kernel
  have holds := each attrs.bits.toNat attrs.bits.toNat_lt
  rwa [UInt8.ofNat_toNat] at holds

/-- Only known attributes are sent. Without one of them the sequence has no parameter, which
turns all off; so the effect is stated where none is on. -/
theorem read_addAttrs {d : Display} (idle : d.reading = .text) (bare : d.style = .plain)
    (attrs : Attrs) :
    d.read (Command.addAttrs attrs).text.toList = { d with style := attrs.known } := by
  by_cases none : attrs = .plain
  · have text : (Command.addAttrs attrs).text.toList = [] := by simp [Command.text, none]
    have known : attrs.known = d.style := by rw [none, bare]; rfl
    rw [text, known]
    rfl
  · have text : (Command.addAttrs attrs).text.toList =
        Command.introducer.toList ++ written (codesOf attrs) ++ ['m'] := by
      simp [Command.text, if_neg none, toList_codes, written]
    have style : (parameters (written (codesOf attrs))).foldl restyled .plain = attrs.known := by
      rw [← restyled_codesOf]
      by_cases empty : codesOf attrs = []
      · rw [empty]
        rfl
      · rw [parameters_written empty]
    rw [text, read_numbers idle _ rfl]
    simp only [obey, bare, style]

theorem read_print {d : Display} (idle : d.reading = .text) {c : Char}
    (shows : Text.columns c ≠ 0) :
    d.read (Command.print c).text.toList = d.print c := by
  have plain : c ≠ '\x1b' := by
    rintro rfl
    exact shows rfl
  have visible : c ≠ '\x00' := by
    rintro rfl
    exact shows rfl
  have text : (Command.print c).text.toList = [c] := by
    simp [Command.text, Command.printable, visible]
  simp only [text, read, List.foldl_cons, List.foldl_nil, take, idle, if_neg plain]

theorem toList_textOfAll (commands : List Command) :
    (Command.textOfAll commands).toList = commands.flatMap (·.text.toList) := by
  have from_ : ∀ out : String, (commands.foldl (fun out c => out ++ c.text) out).toList =
      out.toList ++ commands.flatMap (·.text.toList) := by
    induction commands with
    | nil => simp
    | cons c commands ih => simp [ih]
  exact from_ ""

def run (d : Display) (commands : List Command) : Display :=
  d.read (Command.textOfAll commands).toList

theorem run_nil (d : Display) : d.run [] = d := rfl

theorem run_append (d : Display) (a b : List Command) : d.run (a ++ b) = (d.run a).run b := by
  simp only [run, toList_textOfAll, List.flatMap_append, read_append]

theorem run_singleton (d : Display) (c : Command) : d.run [c] = d.read c.text.toList := by
  simp only [run, toList_textOfAll, List.flatMap_singleton]

theorem run_cons (d : Display) (c : Command) (commands : List Command) :
    d.run (c :: commands) = (d.read c.text.toList).run commands := by
  rw [← run_singleton, ← run_append, List.singleton_append]

end Display
end LSystem.Terminal
