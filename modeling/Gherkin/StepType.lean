/-
  Gherkin/StepType.lean
  =====================
  **What a step does in its scenario.**

  A step sets up a context, performs an action or states an outcome.  The words
  for *and* and *but* have no meaning of their own: such a step continues the
  step before it, and `resolve` gives it that step's type.
-/
import Gherkin.Text.Basic

namespace Gherkin

inductive StepType where
  /-- Given: a precondition. -/
  | context
  /-- When: an action. -/
  | action
  /-- Then: an expected outcome. -/
  | outcome
  /-- And: more of what the previous step does. -/
  | and
  /-- But: an exception to what the previous step does. -/
  | but
deriving DecidableEq, Repr

namespace StepType

def all : List StepType := [.context, .action, .outcome, .and, .but]

def name : StepType → Text
  | .context => "given".toList
  | .action => "when".toList
  | .outcome => "then".toList
  | .and => "and".toList
  | .but => "but".toList

def ofName? (t : Text) : Option StepType := all.find? (·.name == t)

/-- Whether a step of this type continues the previous one. -/
def isConjunction : StepType → Bool
  | .and | .but => true
  | .context | .action | .outcome => false

/-- The type of a step after `last`, the type of the step before it.  A
    conjunction takes that type, and has none when there is no such step.  What
    a step resolves to is also what the next step continues. -/
def resolve (type : StepType) (last : Option StepType) : Option StepType :=
  if type.isConjunction then last else some type

theorem mem_all (type : StepType) : type ∈ all := by cases type <;> decide

theorem ofName?_name (type : StepType) : ofName? type.name = some type := by
  cases type <;> decide

end StepType

end Gherkin
