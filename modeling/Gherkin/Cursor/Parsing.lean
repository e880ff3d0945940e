/-
  Gherkin/Cursor/Parsing.lean
  ===========================
  **Reading a text from its first line to its end.**

  A parser opens a cursor, the lines are handled one by one, and at the end of the
  text the table that is being collected is closed.  What is still unfinished then is
  logged and dropped: a docstring without its fence, and tags that wait.
-/
import Gherkin.Cursor.Handling
import Gherkin.Parser

namespace Gherkin

open Text

namespace Handling

/-- Read the lines of a text, and close the table at its end. -/
def run (text : Text) : Handling Unit := do
  feedAll (lines text)
  if (← get).table.isSome then modify (·.closeTable)

/-- Log what the end of the text leaves unfinished. -/
def finishPending : Handling Unit := do
  let c ← get
  modify fun c => { c with block := none }
  match c.block with
  | some block => note (.openDocstring c.source block.line)
  | none => pure ()
  match c.tags with
  | tag :: _ => note (.danglingTags c.source tag.line)
  | [] => pure ()

def finishFeature : Handling (Option Feature) := do
  finishPending
  modify (·.closeStatement.closeRule)
  return (← get).feature

def finishRule : Handling Group := do
  finishPending
  modify (·.closeStatement)
  return (← get).rule.getD (.start .absent [])

def finishSteps : Handling (List Step) := do
  finishPending
  return (← get).statement.elim [] (·.steps)

end Handling

namespace Parser

/-- The cursor in front of the first line. -/
def cursor (parser : Parser) (entry : Entry) (source : Option Text) : Except Failure Cursor := do
  let standard ← parser.find source parser.catalogue.standard
  let active ← match parser.language with
    | some code => (parser.find source code).map some
    | none => .ok none
  let fresh : Cursor := {
    entry := entry
    catalogue := parser.catalogue
    standard := standard
    fixed := active.isSome
    source := source
    active := active
    line := 0
    stage := .start
    lastType := none
    tags := []
    feature := none
    rule := none
    statement := none
    block := none
    table := none
    examplesOpen := false
    log := [] }
  return match entry with
    | .feature => fresh
    | .rule => { fresh with rule := some (.start .absent []), stage := .rule }
    | .steps =>
      { fresh with statement := some (.scenario ⟨.absent, [], [], [], none⟩), stage := .steps }

/-- What reading a text and finishing gives, and what it logs. -/
def handle {α : Type} (parser : Parser) (entry : Entry) (text : Text) (source : Option Text)
    (finish : Handling α) : Except Failure α × List Record :=
  match parser.cursor entry source with
  | .ok c =>
    let outcome := (Handling.run text >>= fun _ => finish).runOn c
    (outcome.1, outcome.2.log)
  | .error failure => (.error failure, [])

end Parser

end Gherkin
