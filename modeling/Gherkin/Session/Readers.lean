/-
  Gherkin/Session/Readers.lean
  ============================
  **The kinds of line, and which of them each mode tries.**

  A reader either does not recognise a line, or takes it and gives the next
  session or a failure.  Each mode has a list of readers, and the first one
  that recognises the line decides (`recognise`).  The lists are the grammar:
  `Mode.readers` says which lines may stand where, and in which order the
  doubtful cases are settled.
-/
import Gherkin.Session.Diagnosis

namespace Gherkin

open Text

/-- One kind of line: `none` for a line of another kind. -/
abbrev Reader := Session → Text → Option (Except Failure Session)

/-- The answer of the first reader that recognises the line. -/
def recognise (readers : List Reader) (s : Session) (raw : Text) :
    Option (Except Failure Session) :=
  readers.findSome? fun reader => reader s raw

namespace Reader

/-! ### Tags and headers -/

/-- A line of tags.  Behind the feature header it announces a statement. -/
def tagLine : Reader := fun s raw =>
  if leads '@' (trim raw) then
    some <| match Tag.ofLine s.line (trim raw) with
      | .ok tags =>
        .ok { s with
          tags := s.tags ++ tags
          mode := if s.mode = .start then .start else .tagged }
      | .error word => .error (s.failure (.badTag word) raw)
  else none

def featureHeader : Reader := fun s raw =>
  (s.header? .feature raw).map fun header =>
    .ok { s with
      feature := some ⟨s.source, s.language.code, .start header s.tags, []⟩
      tags := []
      mode := .feature }

def ruleHeader : Reader := fun s raw =>
  (s.header? .rule raw).map fun header =>
    if s.feature.isNone then .error (s.unexpected raw)
    else
      .ok { s.closeStatement.closeRule with
        rule := some (.start header s.tags)
        tags := []
        lastType := none
        mode := .rule }

/-- The header of a scenario of the given category, with its first blocks. -/
def scenarioHeader (category : Category) (blocks : Option (List Examples)) : Reader :=
  fun s raw =>
    (s.header? category raw).map fun header =>
      if s.group?.isNone then .error (s.unexpected raw)
      else
        .ok { s.startStatement (.scenario ⟨header, s.tags, [], [], blocks⟩) .scenario with
          tags := [] }

def examplesHeader : Reader := fun s raw =>
  (s.header? .examples raw).map fun header =>
    if (s.statement.bind (·.blocks?)).isNone then .error (s.failure .examplesOutsideOutline raw)
    else
      .ok { s.mapStatement (·.mapBlocks (· ++ [⟨header, s.tags, none⟩])) with
        tags := []
        mode := .examples none }

def backgroundHeader : Reader := fun s raw =>
  (s.header? .background raw).map fun header =>
    if !s.tags.isEmpty then .error (s.failure (.taggedBackground (s.tags.map (·.name))) raw)
    else if (s.group?.bind (·.background)).any (!·.steps.isEmpty) then
      .error (s.failure .secondBackground raw)
    else .ok (s.startStatement (.background ⟨header, [], []⟩) .background)

/-- The header of a background behind the steps of a background. -/
def repeatedBackground : Reader := fun s raw =>
  if s.statement.any (·.isBackground) && s.hasSteps && (s.header? .background raw).isSome then
    some (.error (s.failure .secondBackground raw))
  else none

/-! ### Descriptions -/

def groupDescription : Reader := fun s raw =>
  s.group?.map fun _ => .ok (s.mapGroup (·.describe (trim raw)))

def statementDescription : Reader := fun s raw =>
  s.statement.map fun _ => .ok (s.mapStatement (·.describe (trim raw)))

/-! ### Steps and their arguments -/

def stepLine : Reader := fun s raw =>
  (s.keywords.step? (trim raw)).map fun found =>
    match found.resolve s.lastType with
    | some type =>
      let step : Step := ⟨found.keyword, type, found.text, none, none, s.line⟩
      .ok { s.mapStatement (·.addStep step) with lastType := some type, mode := .steps }
    | none => .error (s.failure .noPreviousStep raw)

def fenceLine : Reader := fun s raw =>
  (Fence.open? (trimStart raw)).map fun (fence, contentType) =>
    if s.hasSteps then
      .ok { s with mode := .docstring (.start s.line raw fence contentType) }
    else .error (s.failure .docstringBeforeStep raw)

/-- A line of an open docstring, or its closing fence. -/
def docstringLine (block : Block) : Reader := fun s raw =>
  some <|
    if block.closes raw then
      .ok { s.mapStatement (·.mapLastStep (·.withDocstring block.docstring)) with mode := .steps }
    else
      match block.push raw with
      | .ok block => .ok { s with mode := .docstring block }
      | .error removed => .error (s.failure (.badIndent removed) raw)

def firstRow : Reader := fun s raw =>
  if leads '|' (trim raw) then
    some <|
      if s.hasSteps then
        .ok { s with mode := .stepTable (.start (Cells.read (trim raw)) s.line) }
      else .error (s.failure .tableBeforeStep raw)
  else none

/-- A further row of a table, put back by `resume`. -/
def nextRow (table : Table) (resume : Table → Mode) : Reader := fun s raw =>
  let cells := Cells.read (trim raw)
  some <|
    match table.push? ⟨cells, s.line⟩ with
    | some table => .ok { s with mode := resume table }
    | none => .error (s.failure (.raggedTable table.headings.length cells.length) raw)

def examplesRow : Option Table → Reader
  | some table => nextRow table fun table => .examples (some table)
  | none => fun s raw =>
    some (.ok { s with mode := .examples (some (.start (Cells.read (trim raw)) s.line)) })

end Reader

open Reader

/-! ### The grammar -/

/-- Tag lines and the headers of statements that may have tags. -/
def taggableReaders : List Reader :=
  [tagLine, ruleHeader, scenarioHeader .scenario none, scenarioHeader .outline (some []),
   examplesHeader]

/-- What may stand among steps, except the first row of a table. -/
def stepReaders : List Reader := fenceLine :: stepLine :: taggableReaders ++ [repeatedBackground]

/-- What may stand in each mode, in the order in which it is tried. -/
def Mode.readers : Mode → List Reader
  | .start => [tagLine, featureHeader]
  | .feature | .rule => taggableReaders ++ [backgroundHeader, groupDescription]
  | .tagged => taggableReaders
  | .background | .scenario => stepLine :: taggableReaders ++ [statementDescription]
  | .steps => stepReaders ++ [firstRow]
  | .docstring block => [docstringLine block]
  | .examples table => [examplesRow table]
  | .stepTable table => [nextRow table .stepTable]

end Gherkin
