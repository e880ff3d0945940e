/-
  Gherkin/Session/Basic.lean
  ==========================
  **The state of reading one text.**

  A session reads a text line by line.  It knows what it is meant to read (a
  whole feature, the body of a rule, or bare steps), which language is in
  force, what kind of line it expects (`Mode`), and the nodes that are still
  open: the feature, the current rule and the current statement.  A statement
  is moved into its group when the next one starts or the text ends, and a rule
  into its feature likewise.

  A docstring or table that is being collected is part of the mode, so a
  session has one exactly while it expects its lines.  A `Cursor` keeps both in
  slots of their own, and reading on one comes to the same (`Parser.handle_eq`).
-/
import Gherkin.Failure
import Gherkin.Keyword.Recognition
import Gherkin.Tree

namespace Gherkin

open Text

/-! ### Changing the last entry -/

/-- A list with its last entry changed; the empty list has none. -/
def mapLast {α : Type} (f : α → α) : List α → List α
  | [] => []
  | [a] => [f a]
  | a :: b :: rest => a :: mapLast f (b :: rest)

theorem mapLast_append_singleton {α : Type} (f : α → α) (init : List α) (a : α) :
    mapLast f (init ++ [a]) = init ++ [f a] := by
  induction init with
  | nil => rfl
  | cons b init ih =>
    cases init with
    | nil => rfl
    | cons c init => simpa [mapLast] using ih

/-! ### Open statements -/

/-- The statement that receives description lines and steps. -/
inductive Statement where
  | background (node : Background)
  | scenario (node : Scenario)
deriving DecidableEq, Repr

namespace Statement

def steps : Statement → List Step
  | .background node => node.steps
  | .scenario node => node.steps

def mapSteps (f : List Step → List Step) : Statement → Statement
  | .background node => .background { node with steps := f node.steps }
  | .scenario node => .scenario { node with steps := f node.steps }

def addStep (statement : Statement) (step : Step) : Statement :=
  statement.mapSteps (· ++ [step])

def mapLastStep (f : Step → Step) (statement : Statement) : Statement :=
  statement.mapSteps (mapLast f)

def describe (line : Text) : Statement → Statement
  | .background node => .background { node with description := node.description ++ [line] }
  | .scenario node => .scenario { node with description := node.description ++ [line] }

def blocks? : Statement → Option (List Examples)
  | .background _ => none
  | .scenario node => node.blocks

/-- The outline with changed Examples blocks; other statements stay as they
    are. -/
def mapBlocks (f : List Examples → List Examples) : Statement → Statement
  | .background node => .background node
  | .scenario node => .scenario { node with blocks := node.blocks.map f }

def isScenario : Statement → Bool
  | .background _ => false
  | .scenario _ => true

def isBackground (statement : Statement) : Bool := !statement.isScenario

end Statement

/-- The group with a finished statement in its place. -/
def Group.close (group : Group) : Statement → Group
  | .background node => { group with background := some node }
  | .scenario node => { group with scenarios := group.scenarios ++ [node] }

def Group.describe (group : Group) (line : Text) : Group :=
  { group with description := group.description ++ [line] }

/-! ### Modes -/

inductive Entry where
  /-- A whole feature. -/
  | feature
  /-- The body of a rule, without its header. -/
  | rule
  /-- Steps, without any header. -/
  | steps
deriving DecidableEq, Repr

inductive Mode where
  | start
  | feature
  | tagged
  | background
  | rule
  | scenario
  | steps
  /-- Inside the given docstring. -/
  | docstring (block : Block)
  /-- Inside an Examples block, with the table read so far. -/
  | examples (table : Option Table)
  /-- Inside the table of a step. -/
  | stepTable (table : Table)
deriving DecidableEq, Repr

/-- The stage that messages name for a mode. -/
def Mode.stage : Mode → Stage
  | .start => .start
  | .feature => .feature
  | .tagged => .tagged
  | .background => .background
  | .rule => .rule
  | .scenario => .scenario
  | .steps => .steps
  | .docstring _ => .docstring
  | .examples _ | .stepTable _ => .table

/-! ### Sessions -/

structure Session where
  /-- What is to be read. -/
  entry : Entry
  /-- Where directives look up their languages. -/
  catalogue : Catalogue
  /-- The language used when none is chosen. -/
  standard : Language
  /-- Whether the caller chose the language. -/
  fixed : Bool
  source : Option Text
  /-- The language chosen so far. -/
  chosen : Option Language
  /-- The number of lines read. -/
  line : Nat
  mode : Mode
  /-- The type that a conjunction would take over. -/
  lastType : Option StepType
  /-- Tags that wait for their statement. -/
  tags : List Tag
  feature : Option Feature
  rule : Option Group
  statement : Option Statement

namespace Session

def language (s : Session) : Language := s.chosen.getD s.standard

def keywords (s : Session) : Keywords := s.language.keywords

def failure (s : Session) (cause : Cause) (raw : Text) : Failure :=
  ⟨cause, s.line, some (trim raw), s.source⟩

/-- The header that the current line is, if it is one of the category. -/
def header? (s : Session) (category : Category) (raw : Text) : Option Header :=
  (s.keywords.header? category (trim raw)).map fun found => ⟨found.1, found.2, s.line⟩

def hasSteps (s : Session) : Bool := s.statement.any (!·.steps.isEmpty)

/-- The group that statements go into: the open rule, or else the feature. -/
def group? (s : Session) : Option Group :=
  match s.rule with
  | some rule => some rule
  | none => s.feature.map (·.top)

def mapGroup (s : Session) (f : Group → Group) : Session :=
  match s.rule with
  | some rule => { s with rule := some (f rule) }
  | none =>
    { s with feature := s.feature.map fun feature => { feature with top := f feature.top } }

def mapStatement (s : Session) (f : Statement → Statement) : Session :=
  { s with statement := s.statement.map f }

def closeStatement (s : Session) : Session :=
  match s.statement with
  | some statement => { s.mapGroup (·.close statement) with statement := none }
  | none => s

def closeRule (s : Session) : Session :=
  match s.rule with
  | some rule =>
    { s with
      rule := none
      feature := s.feature.map fun feature => { feature with rules := feature.rules ++ [rule] } }
  | none => s

def startStatement (s : Session) (statement : Statement) (mode : Mode) : Session :=
  { s.closeStatement with statement := some statement, lastType := none, mode := mode }

/-- Attach a table that has been read to the end, and go on with steps. -/
def closeTable (s : Session) : Session :=
  match s.mode with
  | .examples table =>
    let attach (block : Examples) : Examples := { block with table := table }
    { s.mapStatement (·.mapBlocks (mapLast attach)) with mode := .steps }
  | .stepTable table =>
    { s.mapStatement (·.mapLastStep (·.withTable table)) with mode := .steps }
  | _ => s

end Session

end Gherkin
