import LSystem.CommandLine
import LSystem.Viewer

/-!
What a command line leads to: a text and an exit code, or a viewer to run on the terminal.
Exit code 2 stands for a command line that cannot be read, 1 for a session that cannot start.
-/

namespace LSystem

namespace Refusal

/-- The first line of what is said about a refused command line. -/
def message : Refusal → String
  | info _ => ""
  | unknown argument => "error: unexpected argument '" ++ argument ++ "' found"
  | missingValue o => "error: a value is required for '" ++ o.usage ++ "' but none was supplied"
  | repeated o => "error: the argument '" ++ o.usage ++ "' cannot be used multiple times"
  | unneededValue o => "error: unexpected value for '--" ++ o.name ++ "' found; no more were expected"
  | badValue o value reason =>
    "error: invalid value '" ++ String.ofList (Text.stripped value) ++ "' for '" ++ o.usage ++
      "': " ++ reason

end Refusal

inductive Failure where
  | logFile (path reason : String)
  | settings (e : SettingsError)
  | generation (e : Oversize)

namespace Failure

def subject : Failure → String
  | logFile path _ => "failed to create log file " ++ path
  | settings _ => "invalid settings"
  | generation _ => "initial generation failed"

def cause : Failure → String
  | logFile _ reason => reason
  | settings e => e.message
  | generation e => e.message

def message (f : Failure) : String :=
  "Error: " ++ f.subject ++ "\n\nCaused by:\n    " ++ f.cause ++ "\n"

end Failure

namespace Launch

def version : String := "lsys-tty 0.1.0\n"

def purpose : ValueOption → String
  | .iterations => "Rewrite generations at startup [default: 5]"
  | .length => "Turtle step length in pixels at startup [default: 1]"
  | .limit => "Longest expanded string before a generation is refused [default: 4000000]"
  | .ramp => "Glyphs from darkest to lightest (at least 10)"
  | .fractal => "Index of the fractal shown first [default: 0]"
  | .logFile => "Create this log file"
  | .print => "Print one frame of this size to stdout and exit"

/-- A text filled up with blanks to a number of characters. -/
def padded (size : Nat) (text : String) : String := text.pushn ' ' (size - text.length)

def helpLine (letter : Option Char) (usage purpose : String) : String :=
  let short := match letter with
    | some c => "-" ++ c.toString ++ ", "
    | none => "    "
  "  " ++ padded 31 (short ++ usage) ++ purpose ++ "\n"

def help : String :=
  "L-system fractal viewer and editor that draws ASCII art in the terminal\n\n" ++
  "Usage: lsys-tty [OPTIONS]\n\nOptions:\n" ++
  String.join (ValueOption.all.map fun o => helpLine o.letter? o.usage (purpose o)) ++
  helpLine (some 'h') "--help" "Print help" ++ helpLine (some 'V') "--version" "Print version"

/-- The session that the arguments ask for. The log file comes first, then the settings, then
the first generation; `logFault` tells why the log file cannot be created, if it cannot. -/
def session (a : Arguments) (logFault : String → Option String) : Except Failure Session := do
  if let some path := a.logFile then
    if let some reason := logFault path then
      throw (.logFile path reason)
  let settings ← a.settings.mapError .settings
  (Session.start .seeded settings a.fractal).mapError .generation

/-- A picture of the given size and the status line. -/
def picture (s : Session) (d : Dimensions) : String :=
  (s.frame d.width d.height).text ++ "\n" ++ s.status ++ "\n"

/-- What is left to do for a command line. -/
inductive Plan where
  /-- Writes the texts to the output and to the error output and exits. -/
  | report (code : UInt8) (output complaint : String)
  /-- Runs the viewer on the terminal, then exits. -/
  | run (viewer : Viewer)

/-- The plan for arguments that could be read. -/
def planFor (a : Arguments) (logFault : String → Option String) : Plan :=
  match session a logFault with
  | .error failure => .report 1 "" failure.message
  | .ok s =>
    match a.print with
    | some d => .report 0 (picture s d) ""
    | none => .run (.start s)

def plan (arguments : List String) (logFault : String → Option String) : Plan :=
  match CommandLine.read arguments with
  | .error (.info .help) => .report 0 help ""
  | .error (.info .version) => .report 0 version ""
  | .error refusal =>
    .report 2 "" (refusal.message ++ "\n\nFor more information, try '--help'.\n")
  | .ok a => planFor a logFault

end Launch

end LSystem
