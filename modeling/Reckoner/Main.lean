import Reckoner.CommandLine.Run
import Reckoner.Json.Reader

/-!
# The program

The program reads the variables of its process and the configuration document that they name, and
shows what becomes of its command line.  How the text of a document is read is left to whoever
starts the program: here a document is a JSON text.  No feed can be reached from here: every request
fails.
-/

namespace Reckoner.Main

open Reckoner.CommandLine

/-- The variables of the process, as the operating system lists them. -/
def readVariables : IO (Entries String) := do
  let listed ← (IO.FS.readFile "/proc/self/environ").toBaseIO
  let text := match listed with
    | .ok text => text
    | .error _ => ""
  return (text.splitOn "\x00").filterMap fun entry =>
    match entry.splitOn "=" with
    | name :: value :: more => some (name, "=".intercalate (value :: more))
    | _ => none

/-- The document at a path, if there is one, whose text is read by `read?`. -/
def readDocument (read? : String → Option Json) (path : String) :
    IO (Entries (Except String Json)) := do
  match ← (IO.FS.readFile path).toBaseIO with
  | .error _ => return []
  | .ok text =>
    let value := match read? text with
      | some value => .ok value
      | none => .error ("The document " ++ path ++ " cannot be read")
    return [(Config.normalPath path, value)]

/-- The variables and the document that they name. -/
def readSurroundings (read? : String → Option Json) : IO Surroundings := do
  let env ← readVariables
  match env.lookup Config.pathVariable with
  | some path => return .withBundled env (← readDocument read? path)
  | none => return .withBundled env []

/-- A network in which nothing can be reached. -/
def unreachable : Network := fun _ _ => ⟨some 0, .failed "No network", false⟩

/-- Shows what a session replies to the lines of the input, up to its end. -/
partial def converse (input output : IO.FS.Stream) (s : Session) : IO Unit := do
  output.putStr prompt
  output.flush
  let line ← input.getLine
  if line.isEmpty then return
  let (shown, next) := s.reply unreachable line
  output.putStr shown
  match next with
  | some s => converse input output s
  | none => return

end Reckoner.Main

/-- Does what the arguments ask for, and gives the exit status. -/
def main (args : List String) : IO UInt32 := do
  let surroundings ← Reckoner.Main.readSurroundings Reckoner.Json.read?
  let output ← IO.getStdout
  match Reckoner.CommandLine.react surroundings Reckoner.Main.unreachable args with
  | .error e =>
    (← IO.getStderr).putStrLn e.message
    return 1
  | .ok (.outcome o) =>
    output.putStr o.output
    return o.status.toUInt32
  | .ok (.session s) =>
    output.putStr Reckoner.CommandLine.greeting
    Reckoner.Main.converse (← IO.getStdin) output s
    return 0
