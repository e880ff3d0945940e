/-
  Gherkin/Keyword/Category.lean
  =============================
  **The parts of the grammar that have keywords.**

  Six categories head statements, and the five step types have keywords of
  their own.  Category names are looked up without regard to case and
  surrounding blanks.
-/
import Gherkin.StepType
import Gherkin.Text.Blank

namespace Gherkin

open Text

/-- A part of the grammar with its own list of keywords. -/
inductive Category where
  | feature
  | rule
  | background
  | scenario
  | outline
  | examples
  | step (type : StepType)
deriving DecidableEq, Repr

namespace Category

def all : List Category :=
  [.feature, .rule, .background, .scenario, .outline, .examples] ++ StepType.all.map .step

def name : Category → Text
  | .feature => "feature".toList
  | .rule => "rule".toList
  | .background => "background".toList
  | .scenario => "scenario".toList
  | .outline => "scenario_outline".toList
  | .examples => "examples".toList
  | .step type => type.name

/-- The category with a given name, or the trimmed name when there is none. -/
def ofName (t : Text) : Except Text Category :=
  match all.find? fun category => sameWord category.name (trim t) with
  | some category => .ok category
  | none => .error (trim t)

def unknownMessage (name : Text) : Text := "unknown keyword category: ".toList ++ name

def stepType? : Category → Option StepType
  | .step type => some type
  | _ => none

theorem ofName_name (category : Category) : ofName category.name = .ok category := by
  cases category with
  | step type => cases type <;> rfl
  | _ => rfl

end Category

end Gherkin
