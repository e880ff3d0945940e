/-
  Gherkin/Keyword/Recognition.lean
  ================================
  **Recognising headers, steps and language directives.**

  A header line is an alias followed by a colon, in the very case of the alias.
  A step line begins with an alias of a step type in any case.  Where several
  aliases fit, the first one in the order of the table wins.  A language
  directive is a comment of the form `language: code`.
-/
import Gherkin.Keyword.Catalogue
import Gherkin.Text.Lower

namespace Gherkin

open Text

/-- The alias and the title of a header line of the given category. -/
def Keywords.header? (keywords : Keywords) (category : Category) (line : Text) :
    Option (Text × Text) :=
  (keywords.aliases category).findSome? fun spelling =>
    (after? (spelling ++ [':']) line).map fun rest => (spelling, trim rest)

def Keywords.isHeader (keywords : Keywords) (category : Category) (line : Text) : Bool :=
  (keywords.header? category line).isSome

/-- A line recognised as a step, before its type is resolved. -/
structure StepMatch where
  spelling : Text
  type : StepType
  text : Text
deriving DecidableEq, Repr

namespace StepMatch

def keyword (found : StepMatch) : Text := trimEnd found.spelling

/-- The type of the step after `last`, the type of the step before it.  The
    neutral alias `*` continues a previous step whatever its category. -/
def resolve (found : StepMatch) (last : Option StepType) : Option StepType :=
  if leads '*' found.spelling && last.isSome then last else found.type.resolve last

end StepMatch

/-- The step that a line is, tested type by type and alias by alias. -/
def Keywords.step? (keywords : Keywords) (line : Text) : Option StepMatch :=
  StepType.all.findSome? fun type =>
    (keywords.aliases (.step type)).findSome? fun spelling =>
      (afterAnyCase? spelling line).map fun rest => ⟨spelling, type, trim rest⟩

/-- The word that introduces a language directive. -/
def directiveWord : Text := "language:".toList

/-- The code that a comment line names when it is a language directive. -/
def directive? (comment : Text) : Option Text :=
  let body := trim (comment.dropWhile (· == '#'))
  if sameWord (body.take directiveWord.length) directiveWord then
    some (trim (body.drop directiveWord.length))
  else none

end Gherkin
