/-
  Gherkin/Session/Feed.lean
  =========================
  **Reading line after line.**

  `Session.feed` reads one line.  Outside docstrings a blank line is skipped
  and a comment is at most a language directive.  A line that is no table row
  ends an open table before it is read.  Every other line goes to the readers
  of the mode.

  What is logged depends only on the session and the line, so the log is a
  function of its own (`Session.notes`, `Session.log`), and reading itself is a
  plain fold (`Session.feedAll`) that stops at the first failure.
-/
import Gherkin.Record
import Gherkin.Session.Readers

namespace Gherkin

open Text

namespace Session

/-! ### One line -/

def inDocstring (s : Session) : Bool :=
  match s.mode with
  | .docstring _ => true
  | _ => false

def inTable (s : Session) : Bool :=
  match s.mode with
  | .examples _ | .stepTable _ => true
  | _ => false

def skips (s : Session) (raw : Text) : Bool := !s.inDocstring && (trim raw).isEmpty

def isComment (s : Session) (raw : Text) : Bool := !s.inDocstring && leads '#' (trim raw)

/-- Whether reading a line means testing it against the keywords. -/
def consults (s : Session) (raw : Text) : Bool :=
  !s.skips raw && !s.isComment raw &&
    match s.mode with
    | .start | .feature | .rule | .tagged => !leads '@' (trim raw)
    | .background | .scenario => true
    | .steps => (Fence.open? (trimStart raw)).isNone
    | .docstring _ => false
    | .examples _ | .stepTable _ =>
      !leads '|' (trim raw) && (Fence.open? (trimStart raw)).isNone

/-- Count a line, and settle on a language if its keywords are needed. -/
def enter (s : Session) (raw : Text) : Session :=
  { s with
    line := s.line + 1
    chosen := if s.consults raw then some s.language else s.chosen }

/-- The language named by a directive in a place where directives count: before
    the first tag and the feature header. -/
def directive? (s : Session) (raw : Text) : Option Text :=
  if s.isComment raw && s.mode = .start && s.tags.isEmpty && s.entry = .feature then
    Gherkin.directive? (trim raw)
  else none

def comment (s : Session) (raw : Text) : Except Failure Session :=
  match s.directive? raw with
  | none => .ok s
  | some code =>
    if s.fixed then .ok s
    else
      match s.catalogue.find? code with
      | some language => .ok { s with chosen := some language }
      | none => .error (s.failure (.unknownLanguage code) raw)

/-- End an open table at a line that is no row. -/
def leaveTable (s : Session) (raw : Text) : Session :=
  if s.inTable && !leads '|' (trim raw) then s.closeTable else s

def read (s : Session) (raw : Text) : Except Failure Session :=
  (recognise s.mode.readers s raw).getD (.error (s.unexpected raw))

def feed (s : Session) (raw : Text) : Except Failure Session :=
  let s := s.enter raw
  if s.skips raw then .ok s
  else if s.isComment raw then s.comment raw
  else (s.leaveTable raw).read raw

/-- Read lines up to the first failure. -/
def feedAll (s : Session) (raws : List Text) : Except Failure Session := raws.foldlM feed s

@[simp] theorem feedAll_nil (s : Session) : s.feedAll [] = .ok s := rfl

theorem feedAll_cons (s : Session) (raw : Text) (raws : List Text) :
    s.feedAll (raw :: raws) = (s.feed raw).bind (·.feedAll raws) := rfl

/-- Reading two stretches of lines is reading the second after the first. -/
theorem feedAll_append (s : Session) (raws more : List Text) :
    s.feedAll (raws ++ more) = (s.feedAll raws).bind (·.feedAll more) := by
  induction raws generalizing s with
  | nil => rfl
  | cons raw raws ih =>
    rw [List.cons_append, feedAll_cons, feedAll_cons]
    cases s.feed raw with
    | error failure => rfl
    | ok next => exact ih next

/-! ### The log -/

def languageNote (s : Session) (raw : Text) : List Record :=
  if s.consults raw && s.chosen.isNone then [.standardLanguage s.standard.code] else []

/-- The note on what became of a language directive. -/
def directiveNote (s : Session) (raw : Text) : List Record :=
  match s.directive? raw with
  | none => []
  | some code =>
    if s.fixed then [.directiveIgnored code]
    else if (s.catalogue.lookup code).isSome then [.directiveSelects code]
    else []

/-- Whether a line is read as a table row. -/
def readsRow (s : Session) (raw : Text) : Bool :=
  leads '|' (trim raw) &&
    (s.inTable || (s.mode = .steps && s.hasSteps && (recognise stepReaders s raw).isNone))

def rowNote (s : Session) (raw : Text) : List Record :=
  if s.readsRow raw && !ends '|' (trim raw) then [.openRow s.source s.line] else []

def notes (s : Session) (raw : Text) : List Record :=
  s.languageNote raw ++ s.directiveNote raw ++ (s.enter raw).rowNote raw

/-- What is logged at the end of the text. -/
def endNotes (s : Session) : List Record :=
  (match s.mode with
    | .docstring block => [.openDocstring s.source block.line]
    | _ => []) ++
  (match s.tags with
    | tag :: _ => [.danglingTags s.source tag.line]
    | [] => [])

/-- What reading the rest of a text logs.  A failure ends the log with the line
    that fails. -/
def log (s : Session) : List Text → List Record
  | [] => s.endNotes
  | raw :: rest =>
    s.notes raw ++
      match s.feed raw with
      | .ok next => next.log rest
      | .error _ => []

/-! ### The end of the text -/

def finishFeature (s : Session) : Option Feature :=
  s.closeTable.closeStatement.closeRule.feature

def finishRule (s : Session) : Group :=
  s.closeTable.closeStatement.rule.getD (.start .absent [])

def finishSteps (s : Session) : List Step :=
  s.closeTable.statement.elim [] (·.steps)

end Session

end Gherkin
