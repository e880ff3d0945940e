/-
  Gherkin/Command/Program.lean
  ============================
  **The program.**

  The program prints documents as JSON (`Writer.json`), and `execute` is what a
  request does with that writer.  `Program.run` is the whole program, from
  arguments and environment to exit code, output and reports.
-/
import Gherkin.Command.Execution
import Gherkin.Json.Tree

namespace Gherkin.Command

open Text

/-! ### Running -/

def Invocation.configure (invocation : Invocation) (env : Text → Option Text) :
    Except Fault Config := do
  let config ← Config.ofEnvironment env
  config.override invocation.level invocation.language

def Report.toJson (report : Report) : Json :=
  .record [("scenarios", .arr (report.scenarios.map Selected.toJson)),
    ("limits", report.limits.toJson)]

/-- The writer of JSON documents. -/
def Writer.json : Writer where
  tree feature := (Json.part Feature.toJson feature).document
  report report := report.toJson.document

/-- Carry out a request, printing documents as JSON. -/
def execute (files : Files) (config : Config) (request : Request) (room : Option Nat) :
    Execution :=
  Writer.json.execute files config request room

end Gherkin.Command

namespace Gherkin

/-! ### The whole program -/

open Command

/-- What running the program leaves behind. -/
structure Program.Result where
  exitCode : Nat
  output : Text
  /-- What is written on the standard error stream, report by report. -/
  reports : List Text
deriving DecidableEq, Repr

namespace Program

def versionText : Text := "gherkin-line 0.1.0\n".toList

/-- The reports that are shown at a level. -/
def shown (level : Level) (events : List Event) : List Text :=
  (events.filter (·.isShown level)).map (·.text)

/-- The result for arguments that make no invocation. -/
def refuse : UsageError → Result
  | .helpRequested => ⟨0, [], []⟩
  | .versionRequested => ⟨0, versionText, []⟩
  | _ => ⟨2, [], []⟩

def run (files : Files) (env : Text → Option Text) (arguments : List Text) : Result :=
  match readArguments arguments with
  | .error error => refuse error
  | .ok invocation =>
    match invocation.configure env with
    | .error fault => ⟨2, [], shown Config.standard.level [.badConfig fault]⟩
    | .ok config =>
      let done := execute files config invocation.request none
      let report (code : Nat) (last : List Event) : Result :=
        ⟨code, done.output, shown config.level (.starting :: done.events ++ last)⟩
      match done.outcome with
      | .ok .success => report 0 []
      | .ok .failed => report 1 []
      | .error _ => report 1 [.failed]

end Program

end Gherkin
