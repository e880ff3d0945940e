/-
  Gherkin/Main.lean
  =================
  **The command line.**

  The files that the arguments name are read beforehand, and the program runs
  on what was read.  Output goes to the standard output, reports to the
  standard error stream.
-/
import Gherkin.Command.Program

namespace Gherkin.Main

open Gherkin.Command

def filesOf : Request → List Text
  | .parse file => [file]
  | .check files | .select _ _ files => files
  | .languages => []

def readFile (path : Text) : IO (Text × Except Text Text) := do
  try
    let bytes ← IO.FS.readBinFile (String.ofList path)
    return (path, Snapshot.decode bytes)
  catch error => return (path, .error (toString error).toList)

/-- The files among those that have been read. -/
def lookup (contents : List (Text × Except Text Text)) : Files := fun path =>
  match contents.find? (·.1 == path) with
  | some entry => entry.2
  | none => .error "No such file or directory".toList

/-- The variables of the environment that the program looks at. -/
def environment : IO (Text → Option Text) := do
  let level ← IO.getEnv (String.ofList Config.levelVariable)
  let language ← IO.getEnv (String.ofList Config.languageVariable)
  return fun name =>
    if name = Config.levelVariable then level.map String.toList
    else if name = Config.languageVariable then language.map String.toList
    else none

def run (arguments : List Text) : IO UInt32 := do
  let paths := match readArguments arguments with
    | .ok invocation => filesOf invocation.request
    | .error _ => []
  let contents ← paths.mapM readFile
  let result := Program.run (lookup contents) (← environment) arguments
  IO.print (String.ofList result.output)
  for report in result.reports do
    IO.eprintln (String.ofList report)
  return UInt32.ofNat result.exitCode

end Gherkin.Main

def main (arguments : List String) : IO UInt32 :=
  Gherkin.Main.run (arguments.map String.toList)
