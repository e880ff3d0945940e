/-
  Gherkin/Tree.lean
  =================
  **The document tree of a feature.**

  A feature is a group of scenarios, followed by rules that are groups of their
  own.  A group has a header, tags, a description, at most one background and
  its scenarios.  A scenario outline is a scenario with Examples blocks; a
  concrete scenario has none.  Every node remembers the line it starts on.
-/
import Gherkin.Docstring
import Gherkin.StepType
import Gherkin.Table.Basic
import Gherkin.Tag

namespace Gherkin

open Text

/-! ### Steps -/

structure Step where
  /-- The keyword as the language spells it, without trailing blanks. -/
  keyword : Text
  type : StepType
  text : Text
  table : Option Table
  docstring : Option Docstring
  line : Nat
deriving DecidableEq, Repr

namespace Step

def hasArgument (step : Step) : Bool := step.table.isSome || step.docstring.isSome

/-- The step ready for an argument: its first argument takes over the colon that
    announced it. -/
def announced (step : Step) : Step :=
  if step.hasArgument then step else { step with text := dropFinal ':' step.text }

def withTable (step : Step) (table : Table) : Step :=
  { step.announced with table := some table }

def withDocstring (step : Step) (docstring : Docstring) : Step :=
  { step.announced with docstring := some docstring }

end Step

/-! ### Statements -/

structure Header where
  keyword : Text
  title : Text
  line : Nat
deriving DecidableEq, Repr

/-- The header of a fragment that is read without one. -/
def Header.absent : Header := ⟨[], [], 0⟩

structure Background where
  header : Header
  description : List Text
  steps : List Step
deriving DecidableEq, Repr

structure Examples where
  header : Header
  tags : List Tag
  table : Option Table
deriving DecidableEq, Repr

structure Scenario where
  header : Header
  tags : List Tag
  description : List Text
  steps : List Step
  /-- The Examples blocks of an outline; `none` for a concrete scenario. -/
  blocks : Option (List Examples)
deriving DecidableEq, Repr

def Scenario.isOutline (scenario : Scenario) : Bool := scenario.blocks.isSome

/-! ### Groups and features -/

/-- A headed group of scenarios: a rule, or the part of a feature before its
    first rule. -/
structure Group where
  header : Header
  tags : List Tag
  description : List Text
  background : Option Background
  scenarios : List Scenario
deriving DecidableEq, Repr

def Group.start (header : Header) (tags : List Tag) : Group := ⟨header, tags, [], none, []⟩

structure Feature where
  /-- Where the text came from. -/
  source : Option Text
  /-- The code of the language whose keywords were used. -/
  language : Text
  /-- Everything before the first rule. -/
  top : Group
  rules : List Group
deriving DecidableEq, Repr

/-- Every scenario with the rule that contains it, in source order. -/
def Feature.scenarios (feature : Feature) : List (Option Group × Scenario) :=
  feature.top.scenarios.map (none, ·) ++
    feature.rules.flatMap fun rule => rule.scenarios.map (some rule, ·)

end Gherkin
