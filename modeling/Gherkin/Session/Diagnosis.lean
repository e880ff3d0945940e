/-
  Gherkin/Session/Diagnosis.lean
  ==============================
  **Explaining a line that does not fit.**

  A line that nothing at the current stage accepts is tested against the header
  keywords once more.  The first category that fits it decides the explanation,
  which also depends on what the session has read so far.  Diagnosis looks at
  the session and changes nothing.
-/
import Gherkin.Session.Basic

namespace Gherkin

open Text

inductive Reason where
  /-- A second feature header. -/
  | secondFeature
  /-- A header where its category may not stand. -/
  | misplaced (category : Category)
  /-- A scenario header before the feature header. -/
  | beforeFeature (category : Category)
  /-- A background header behind a scenario of its group. -/
  | lateBackground
  /-- A background header below tags. -/
  | taggedBackground
  /-- Anything else before the feature header. -/
  | noFeature
deriving DecidableEq, Repr

namespace Reason

/-- How explanations call a category. -/
def noun : Category → Text
  | .feature => "Feature".toList
  | .rule => "Rule".toList
  | .background => "Background".toList
  | .scenario => "Scenario".toList
  | .outline => "ScenarioOutline".toList
  | .examples => "Examples".toList
  | .step _ => "Step".toList

def message : Reason → Text
  | .secondFeature => "Multiple features in one file are not supported.".toList
  | .misplaced category => noun category ++ " should not be used here.".toList
  | .beforeFeature category => noun category ++ " may not occur before Feature.".toList
  | .lateBackground => "Background may not occur after Scenario/ScenarioOutline.".toList
  | .taggedBackground => "Background does not support tags.".toList
  | .noFeature => "No feature found.".toList

end Reason

namespace Session

def groupHasScenarios (s : Session) : Bool :=
  s.statement.any (·.isScenario) || s.group?.any (!·.scenarios.isEmpty)

def backgroundReason (s : Session) : Reason :=
  if s.groupHasScenarios then .lateBackground
  else if s.tags.isEmpty then .misplaced .background
  else .taggedBackground

def scenarioReason (s : Session) (category : Category) : Reason :=
  if s.group?.isSome then .misplaced category else .beforeFeature category

/-- The explanation of a line that does not fit. -/
def diagnose (s : Session) (raw : Text) : Option Reason :=
  let fits (category : Category) : Bool := s.keywords.isHeader category (trim raw)
  if fits .feature then
    some (if s.feature.isSome then .secondFeature else .misplaced .feature)
  else if fits .rule then some (.misplaced .rule)
  else if fits .background then some s.backgroundReason
  else if fits .scenario then some (s.scenarioReason .scenario)
  else if fits .outline then some (s.scenarioReason .outline)
  else if s.entry = .feature ∧ s.feature.isNone then some .noFeature
  else none

def unexpected (s : Session) (raw : Text) : Failure :=
  s.failure (.unexpectedLine s.mode.stage ((s.diagnose raw).map (·.message))) raw

end Session

end Gherkin
