import NumberConcepts.CommandLine.Response
import Std.Time.Zoned
/-!
# The program

Reads the settings and the variables that they mention, responds to the command
line, writes the documents and prints the lines.
-/

namespace NumberConcepts.CommandLine

/-- What is printed when the usage is wanted or the command line makes no sense. -/
def usage : String :=
  "Usage: COMMAND [EXAMPLES] [OPTIONS]\n" ++
    "Commands: " ++ ", ".intercalate (CommandName.all.map CommandName.text)

/-- What there is at a location. -/
def readSettings (location : Location) : IO SettingsFile := do
  try
    return SettingsFile.ofText (← IO.FS.readFile location.text)
  catch
    | .noFileOrDirectory .. => return .absent
    | _ => return .unreadable

/-- The values of those variables that are set. -/
def readVariables (names : List String) : IO Placeholder.Environment :=
  names.filterMapM fun name => do
    return (← IO.getEnv name).map fun value => (name, value)

/-- A number with leading zeros. -/
def padded (width : Nat) (n : Int) : String :=
  String.ofList ((toString n).toList.leftpad width '0')

/-- The date and the time, for the names of documents. -/
def readStamp : IO String := do
  let now ← Std.Time.PlainDateTime.now
  return padded 4 now.year.toInt ++ padded 2 now.month.val ++ padded 2 now.day.val ++ "_" ++
    padded 2 now.hour.val ++ padded 2 now.minute.val ++ padded 2 now.second.val

/-- Write a document to its file. -/
def writeDocument (document : Document) : IO Unit := do
  IO.FS.createDirAll document.location.directory.text
  IO.FS.writeFile document.location.text document.text

/-- Print what came of a session. -/
def report (outcome : Outcome) : IO Unit := do
  IO.print outcome.printed
  match outcome.ending with
  | .help => IO.println usage
  | .misuse reason => IO.eprintln ((reason.map Fault.message).getD usage)
  | .failure (.invalidSettings items) => items.forM fun item => IO.eprintln item
  | .failure fault => IO.eprintln fault.message
  | _ => return

/-- Respond to a command line; the result is the exit code. -/
def run (arguments : List String) : IO UInt32 := do
  let invocation := Invocation.read? arguments
  let file ← match invocation with
    | some (.run location _) => readSettings location
    | _ => pure .absent
  let environment ← readVariables file.mentions
  let outcome := respond environment (fun _ => file) (← readStamp) invocation
  outcome.documents.forM writeDocument
  report outcome
  return outcome.ending.exitCode.toUInt32

end NumberConcepts.CommandLine

/-- The program. -/
def main (arguments : List String) : IO UInt32 := NumberConcepts.CommandLine.run arguments
