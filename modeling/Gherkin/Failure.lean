/-
  Gherkin/Failure.lean
  ====================
  **Why and where reading a text fails.**

  A failure is a cause with only the data that belongs to it, and a position.
  The wording lives here and nowhere else: `Cause.message` words the cause,
  `Failure.annotated` adds the line, its text and the diagnosis, and
  `Failure.message` names the source in front of it all.
-/
import Gherkin.Text.Decimal

namespace Gherkin

open Text

/-! ### Causes -/

/-- The stage that the reading of a document has reached. -/
inductive Stage where
  /-- Before the feature header. -/
  | start
  /-- In the description of the feature. -/
  | feature
  /-- Behind a tag line. -/
  | tagged
  /-- In the description of a background. -/
  | background
  /-- In the description of a rule. -/
  | rule
  /-- In the description of a scenario or outline. -/
  | scenario
  /-- Among the steps of a statement. -/
  | steps
  /-- Inside a docstring. -/
  | docstring
  /-- Inside a table. -/
  | table
deriving DecidableEq, Repr

namespace Stage

def all : List Stage :=
  [.start, .feature, .tagged, .background, .rule, .scenario, .steps, .docstring, .table]

def name : Stage → Text
  | .start => "init".toList
  | .feature => "feature".toList
  | .tagged => "taggable_statement".toList
  | .background => "background".toList
  | .rule => "rule".toList
  | .scenario => "scenario".toList
  | .steps => "steps".toList
  | .docstring => "multiline_text".toList
  | .table => "table".toList

def ofName? (t : Text) : Option Stage := all.find? (·.name == t)

end Stage

inductive Cause where
  /-- Nothing that may stand at this stage fits the line. -/
  | unexpectedLine (stage : Stage) (reason : Option Text)
  /-- An Examples header without an open outline. -/
  | examplesOutsideOutline
  /-- A background header below the named tags. -/
  | taggedBackground (tags : List Text)
  /-- A background header after a background with steps. -/
  | secondBackground
  /-- A word of a tag line that is no tag. -/
  | badTag (word : Text)
  /-- A conjunction with no step to continue. -/
  | noPreviousStep
  /-- A docstring fence before the first step. -/
  | docstringBeforeStep
  /-- A table row before the first step. -/
  | tableBeforeStep
  /-- A table row of another width than the headings. -/
  | raggedTable (expected actual : Nat)
  /-- A docstring line with text to the left of the margin. -/
  | badIndent (removed : Text)
  /-- A language that the catalogue does not have. -/
  | unknownLanguage (code : Text)
  /-- Another number of steps than one, where one was asked for. -/
  | stepCount (found : Nat)
  /-- A file that cannot be read as text, and what the reader said. -/
  | unreadable (detail : Text)
deriving DecidableEq, Repr

namespace Cause

def message : Cause → Text
  | .unexpectedLine stage _ => "Parser failure in state=".toList ++ stage.name
  | .examplesOutsideOutline => "Examples must only appear inside scenario outline".toList
  | .taggedBackground tags =>
    "Background supports no tags: ".toList ++ join ' ' (tags.map ('@' :: ·))
  | .secondBackground => "Second Background (can have only one)".toList
  | .badTag word => "Bad tag `".toList ++ word ++ "`: tags must start with '@'".toList
  | .noPreviousStep => "No previous step".toList
  | .docstringBeforeStep => "Multi-line text before any step".toList
  | .tableBeforeStep => "Table start without step".toList
  | .raggedTable expected actual =>
    "Malformed table: expected ".toList ++ decimal expected ++ " cells, found ".toList ++
      decimal actual
  | .badIndent removed =>
    "BAD-INDENT in multiline text: would strip leading '".toList ++ removed ++ "'".toList
  | .unknownLanguage code => "Unknown language `".toList ++ code ++ "`".toList
  | .stepCount found => "Expected exactly one step, found ".toList ++ decimal found
  | .unreadable _ => "Unable to read feature file".toList

def reason? : Cause → Option Text
  | .unexpectedLine _ reason => reason
  | _ => none

end Cause

/-! ### Failures -/

structure Position where
  /-- The number of the line, counted from one; zero when no line is to blame. -/
  line : Nat
  /-- The trimmed line. -/
  text : Option Text
  source : Option Text
deriving DecidableEq, Repr

/-- The position of a failure that concerns the source as a whole. -/
def Position.whole (source : Option Text) : Position := ⟨0, none, source⟩

structure Failure where
  cause : Cause
  position : Position
deriving DecidableEq, Repr

/-- How a text without a source is called. -/
def anonymous : Text := "<string>".toList

namespace Failure

def lineNote (line : Nat) : Text := if line = 0 then [] else " at line ".toList ++ decimal line

/-- The part of a message that quotes the line. -/
def textNote : Option Text → Text
  | none | some [] => []
  | some text => ": \"".toList ++ text ++ "\"".toList

/-- The part of a message that gives the diagnosis. -/
def reasonNote : Option Text → Text
  | none => []
  | some reason => "\nREASON: ".toList ++ reason

/-- The message without the name of the source. -/
def annotated (failure : Failure) : Text :=
  failure.cause.message ++ lineNote failure.position.line ++ textNote failure.position.text ++
    reasonNote failure.cause.reason?

def sourceName : Option Text → Text
  | none => anonymous
  | some source => "\"".toList ++ source ++ "\"".toList

def message (failure : Failure) : Text :=
  "Failed to parse ".toList ++ sourceName failure.position.source ++ ": ".toList ++
    failure.annotated

end Failure

end Gherkin
