import LSystem.Console
import LSystem.Launch

/-!
The program: reads the command line, writes what it leads to, and runs the viewer on standard
input and output.
-/

namespace LSystem.Program

open Terminal

/-- What is said about a file that could not be created: the system's words and number for it. -/
def describe : IO.Error → String
  | .noFileOrDirectory _ code words | .permissionDenied _ code words
  | .inappropriateType _ code words | .invalidArgument _ code words
  | .resourceExhausted _ code words | .noSuchThing _ code words | .alreadyExists _ code words
  | .interrupted _ code words | .otherError code words | .resourceBusy code words
  | .resourceVanished code words | .unsupportedOperation code words | .hardwareFault code words
  | .unsatisfiedConstraints code words | .illegalOperation code words
  | .protocolError code words | .timeExpired code words =>
    words ++ " (os error " ++ toString code ++ ")"
  | e => toString e

/-- Creates an empty file. Gives the reason if that fails. -/
def create (path : String) : IO (Option String) := do
  try
    IO.FS.writeFile path ""
    return none
  catch e => return some (describe e)

def send (text : String) : IO Unit := do
  let output ← IO.getStdout
  output.putStr text
  output.flush

/-- Runs the loop on what is read until the user quits or the input ends. -/
partial def serve (l : Loop Viewer) : IO Unit := do
  let (l, output) := l.refresh Viewer.app
  send output
  let bytes ← (← IO.getStdin).read (USize.ofNat Console.pieceSize)
  if bytes.isEmpty then return
  match l.take Viewer.app (.bytes bytes.toList) with
  | (_, true) => return
  | (l, false) => serve l

def run (viewer : Viewer) : IO Unit := do
  send (Command.textOfAll Console.opening)
  serve (Console.start viewer)
  send (Command.textOfAll Console.closing)

end LSystem.Program

open LSystem in
def main (arguments : List String) : IO UInt32 := do
  let fault ← match CommandLine.read arguments with
    | .ok { logFile := some path, .. } => Program.create path
    | _ => pure none
  match Launch.plan arguments fun _ => fault with
  | .report code output complaint =>
    Program.send output
    (← IO.getStderr).putStr complaint
    return code.toUInt32
  | .run viewer =>
    Program.run viewer
    return 0
