/-
  Gherkin/Command/Execution.lean
  ==============================
  **What requests do.**

  `plan` says what a request does, given the files: `parse` prints a tree,
  `check` reports on each file, `select` lists scenarios and limits, and
  `languages` lists the bundled languages.  Trees and reports are printed as
  documents, by a writer.  `Writer.execute` delivers the plan of a request.
-/
import Gherkin.Command.Files
import Gherkin.Command.Plan
import Gherkin.Command.Usage
import Gherkin.Command.Writer

namespace Gherkin.Command

open Text

/-! ### Pieces of output -/

def outputLine (line complaint : Text) : Effect := .write (line ++ ['\n']) complaint

def outputDocument (document : Text) : List Effect :=
  [.write document "failed to serialise output".toList,
   .write ['\n'] "failed to terminate JSON output".toList]

def checkLine (path : Text) : Except Failure (Option Feature) → Text
  | .ok (some feature) =>
    "ok ".toList ++ path ++ " (".toList ++ decimal feature.scenarios.length ++
      " scenarios)".toList
  | .ok none => "empty ".toList ++ path
  | .error failure => "error ".toList ++ failure.message

def selectedLine (scenario : Selected) : Text :=
  scenario.source.getD anonymous ++ ":".toList ++ decimal scenario.line ++ " :: ".toList ++
    (scenario.rule.elim [] fun rule => rule ++ " :: ".toList) ++ scenario.title ++
    (if scenario.tags.isEmpty then []
      else " [tags: ".toList ++ List.intercalate ", ".toList scenario.tags ++ "]".toList)

def limitLine (tag : Text) (limit : Nat) : Text :=
  "limit @".toList ++ tag ++ "=".toList ++ decimal limit

/-! ### Plans -/

def parserFor (language : Option Text) : Parser := { Parser.standard with language := language }

/-- Records of the library as reports. -/
def reports (records : List Record) : List Effect := records.map fun record =>
  .report (.logged record)

def loadReports (parser : Parser) (files : Files) (path : Text) : List Effect :=
  .report (.loading path) :: reports (parser.fileLog files path)

/-- Load files up to the first that fails. -/
def loadAll (parser : Parser) (files : Files) :
    List Text → List Effect × Except Failure (List Feature)
  | [] => ([], .ok [])
  | path :: rest =>
    match parser.file files path with
    | .error failure => (loadReports parser files path, .error failure)
    | .ok feature =>
      let (effects, features) := loadAll parser files rest
      (loadReports parser files path ++ effects, features.map (feature.toList ++ ·))

def parsePlan (writer : Writer) (parser : Parser) (files : Files) (path : Text) : Plan :=
  match parser.file files path with
  | .error failure => ⟨loadReports parser files path, .error (.parse failure)⟩
  | .ok feature =>
    ⟨loadReports parser files path ++ outputDocument (writer.tree feature), .ok .success⟩

/-- What checking one file does. -/
def checkFile (parser : Parser) (files : Files) (path : Text) : List Effect :=
  reports (parser.fileLog files path) ++
    [outputLine (checkLine path (parser.file files path))
      ("failed to write check result for ".toList ++ path)]

def isBad (parser : Parser) (files : Files) (path : Text) : Bool :=
  match parser.file files path with
  | .ok _ => false
  | .error _ => true

def checkPlan (parser : Parser) (files : Files) (paths : List Text) : Plan :=
  let failures := paths.countP (isBad parser files)
  ⟨paths.flatMap (checkFile parser files) ++ [.report (.checked paths.length failures)],
    .ok (if failures = 0 then .success else .failed)⟩

def selectionOutput (writer : Writer) (report : Report) (json : Bool) : List Effect :=
  if json then outputDocument (writer.report report)
  else
    (report.scenarios.map fun scenario =>
      outputLine (selectedLine scenario)
        ("failed to write selected scenario ".toList ++ scenario.title)) ++
    report.limits.map fun (tag, limit) =>
      outputLine (limitLine tag limit) ("failed to write limit for @".toList ++ tag)

/-- List the scenarios that match all clauses. -/
def selectPlan (writer : Writer) (parser : Parser) (files : Files) (clauses : List Text)
    (json : Bool) (paths : List Text) : Plan :=
  match TagExpr.compile clauses with
  | .error flaw => ⟨[], .error (.tagExpression flaw)⟩
  | .ok expr =>
    let compiled : List Effect :=
      [.report (.logged (.compiledExpression expr.written)), .report (.compiled expr.written)]
    match loadAll parser files paths with
    | (loading, .error failure) => ⟨compiled ++ loading, .error (.parse failure)⟩
    | (loading, .ok features) =>
      let selected := features.flatMap (Selection.select · expr)
      ⟨compiled ++ loading ++ .report (.selected selected.length) ::
        selectionOutput writer ⟨selected, expr.limits⟩ json, .ok .success⟩

def languagesPlan : Plan :=
  ⟨Builtin.languages.map fun language =>
    outputLine (language.code ++ ['\t'] ++ language.keywords.name)
      ("failed to write language ".toList ++ language.code), .ok .success⟩

def plan (writer : Writer) (files : Files) (config : Config) (request : Request) : Plan :=
  let parser := parserFor config.language
  match request with
  | .parse file => parsePlan writer parser files file
  | .check paths => checkPlan parser files paths
  | .select clauses json paths => selectPlan writer parser files clauses json paths
  | .languages => languagesPlan

/-! ### Execution -/

/-- What carrying out a request gives. -/
structure Execution where
  events : List Event
  output : Text
  outcome : Except Fault Verdict

/-- Carry out a request, writing to a stream with the given room. -/
def Writer.execute (writer : Writer) (files : Files) (config : Config) (request : Request)
    (room : Option Nat) : Execution :=
  let plan := plan writer files config request
  let delivery := deliver room plan.effects
  ⟨delivery.events, delivery.output, plan.outcome delivery⟩

end Gherkin.Command
