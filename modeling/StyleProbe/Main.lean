import StyleProbe.CommandLine

/-!
# The program

Reads the files that the command line names, runs the program on their
texts, and prints what it shows. All decisions are made in `CommandLine`.
-/

namespace StyleProbe.Program

/-- The text of a file, if it can be read and is valid UTF-8. -/
def readText (path : String) : IO (Option String) := do
  try
    return String.fromUTF8? (← IO.FS.readBinFile path)
  catch _ => return none

/-- The paths that a request names. -/
def paths (request : Request) : List String :=
  (match request.profile with
    | .file path => [path]
    | .builtin _ => []) ++
  match request.command with
  | .audit path => [path]
  | _ => []

/-- The texts of the files that the command line names. -/
def readFiles (args : List String) : IO Files := do
  match CommandLine.parse args with
  | .error _ => return fun _ => none
  | .ok request =>
    let texts ← (paths request).mapM fun path => do
      return (path, ← readText path)
    return fun path => (texts.lookup path).join

/-- The width of the terminal, as the environment tells it. -/
def terminalWidth : IO (Option Nat) := do
  let columns := (← IO.getEnv "COLUMNS").bind (·.toNat?)
  return columns.bind CommandLine.widthOfColumns

end StyleProbe.Program

open StyleProbe in
def main (args : List String) : IO UInt32 := do
  let files ← Program.readFiles args
  let outcome := CommandLine.run files (← Program.terminalWidth) args
  IO.print outcome.printed
  if let some message := outcome.error then
    IO.eprintln ("Error: " ++ message)
  if outcome.status = 2 then
    IO.eprint CommandLine.usage
  return outcome.status.toUInt32
