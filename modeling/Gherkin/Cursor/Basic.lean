/-
  Gherkin/Cursor/Basic.lean
  =========================
  **The state of reading, slot by slot.**

  The mode of a session carries the docstring or table that is being collected,
  so a session cannot have one at the wrong time.  A cursor makes no such
  promise: the stage, the open docstring, the open table and the mark that the
  next rows belong to an Examples block are slots of their own, and the moves
  below change one slot or another.  That the slots fit together is then a
  property of reading, and not of the type.

  A cursor also keeps the log, so that what is logged is logged where it happens.
-/
import Gherkin.Record
import Gherkin.Session.Diagnosis

namespace Gherkin

open Text

/-- The slots of a reading, the open nodes among them, and the log so far. -/
structure Cursor where
  entry : Entry
  catalogue : Catalogue
  /-- The language used when none is chosen. -/
  standard : Language
  /-- Whether the caller chose the language. -/
  fixed : Bool
  source : Option Text
  /-- The language in force, once one is. -/
  active : Option Language
  line : Nat
  stage : Stage
  lastType : Option StepType
  tags : List Tag
  feature : Option Feature
  rule : Option Group
  statement : Option Statement
  /-- The docstring whose closing fence has not been read. -/
  block : Option Block
  /-- The table whose rows are being collected. -/
  table : Option Table
  /-- Whether the rows belong to an Examples block. -/
  examplesOpen : Bool
  log : List Record

namespace Cursor

/-! ### Looking at the slots -/

def language (c : Cursor) : Language := c.active.getD c.standard

def failure (c : Cursor) (cause : Cause) (line : Text) : Failure :=
  ⟨cause, c.line, some (trim line), c.source⟩

def hasSteps (c : Cursor) : Bool := c.statement.any (!·.steps.isEmpty)

/-- The group that statements go into: the open rule, or else the feature. -/
def group? (c : Cursor) : Option Group :=
  match c.rule, c.feature with
  | some rule, _ => some rule
  | none, some feature => some feature.top
  | none, none => none

def groupHasScenarios (c : Cursor) : Bool :=
  c.statement.any (·.isScenario) || c.group?.any (!·.scenarios.isEmpty)

/-- The explanation of a line that does not fit.  Looking for one does not install
    a language. -/
def diagnose (c : Cursor) (line : Text) : Option Reason :=
  let fits (category : Category) : Bool := c.language.keywords.isHeader category line
  if fits .feature then
    some (if c.feature.isSome then .secondFeature else .misplaced .feature)
  else if fits .rule then some (.misplaced .rule)
  else if fits .background then
    some (if c.groupHasScenarios then .lateBackground
      else if c.tags.isEmpty then .misplaced .background else .taggedBackground)
  else if fits .scenario then
    some (if c.group?.isSome then .misplaced .scenario else .beforeFeature .scenario)
  else if fits .outline then
    some (if c.group?.isSome then .misplaced .outline else .beforeFeature .outline)
  else if c.entry = .feature ∧ c.feature.isNone then some .noFeature
  else none

def unexpected (c : Cursor) (line : Text) : Failure :=
  c.failure (.unexpectedLine c.stage ((c.diagnose line).map (·.message))) line

/-! ### Moves -/

def mapGroup (c : Cursor) (f : Group → Group) : Cursor :=
  match c.rule, c.feature with
  | some rule, _ => { c with rule := some (f rule) }
  | none, some feature => { c with feature := some { feature with top := f feature.top } }
  | none, none => c

def mapStatement (c : Cursor) (f : Statement → Statement) : Cursor :=
  { c with statement := c.statement.map f }

def closeStatement (c : Cursor) : Cursor :=
  match c.statement with
  | none => c
  | some statement => { c with statement := none }.mapGroup (·.close statement)

def closeRule (c : Cursor) : Cursor :=
  match c.rule with
  | none => c
  | some rule =>
    { c with
      rule := none
      feature := c.feature.map fun feature => { feature with rules := feature.rules ++ [rule] } }

def startStatement (c : Cursor) (statement : Statement) : Cursor :=
  { c.closeStatement with lastType := none, statement := some statement }

/-- Attach the collected table, if any, to the last Examples block when one is
    open, and to the last step otherwise. -/
def closeTable (c : Cursor) : Cursor :=
  let closed := { c with table := none, examplesOpen := false }
  if c.examplesOpen then
    closed.mapStatement (·.mapBlocks (mapLast fun block => { block with table := c.table }))
  else
    match c.table with
    | none => closed
    | some table => closed.mapStatement (·.mapLastStep (·.withTable table))

def closeBlock (c : Cursor) : Cursor :=
  match c.block with
  | none => c
  | some block =>
    { c with block := none }.mapStatement (·.mapLastStep (·.withDocstring block.docstring))

/-- Put a language in force if there is none, and log that. -/
def settle (c : Cursor) : Cursor :=
  match c.active with
  | some _ => c
  | none =>
    { c with
      active := some c.standard
      log := c.log ++ [.standardLanguage c.standard.code] }

/-- Log a row without a closing pipe. -/
def warnOpenRow (c : Cursor) (line : Text) : Cursor :=
  if ends '|' line then c else { c with log := c.log ++ [.openRow c.source c.line] }

end Cursor

end Gherkin
