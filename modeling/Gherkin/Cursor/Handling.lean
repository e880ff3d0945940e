/-
  Gherkin/Cursor/Handling.lean
  ============================
  **Handling a line.**

  A handler works on a cursor and may fail; what it has done by then, and what it
  has logged, stays done.  There is one handler for each stage, and it says whether
  it takes the line.  Handlers are made of smaller ones that are tried in turn, and
  some hand a line on: a line that is no row goes from the table back to the steps,
  and the first row below a step goes from the steps to the table.
-/
import Gherkin.Cursor.Basic

namespace Gherkin

open Text

/-- Work on a cursor that gives a value or fails. -/
def Handling (α : Type) : Type := ExceptT Failure (StateM Cursor) α

namespace Handling

instance : Monad Handling := inferInstanceAs (Monad (ExceptT Failure (StateM Cursor)))

instance : MonadStateOf Cursor Handling :=
  inferInstanceAs (MonadStateOf Cursor (ExceptT Failure (StateM Cursor)))

instance : MonadExceptOf Failure Handling :=
  inferInstanceAs (MonadExceptOf Failure (ExceptT Failure (StateM Cursor)))

/-- The outcome of work that begins with the given cursor, and the cursor it
    leaves behind. -/
def runOn {α : Type} (work : Handling α) (c : Cursor) : Except Failure α × Cursor :=
  (ExceptT.run work).run c

section Run

variable {α β : Type} {work : Handling α} {c d : Cursor}

theorem runOn_get (c : Cursor) : (get : Handling Cursor).runOn c = (.ok c, c) := rfl

theorem runOn_modify (f : Cursor → Cursor) (c : Cursor) :
    (modify f : Handling Unit).runOn c = (.ok (), f c) := rfl

theorem runOn_bind (work : Handling α) (next : α → Handling β) (c : Cursor) :
    (work >>= next).runOn c =
      match work.runOn c with
      | (.ok a, d) => (next a).runOn d
      | (.error failure, d) => (.error failure, d) := by
  show (ExceptT.bindCont next (work.runOn c).1 (work.runOn c).2) = _
  rcases work.runOn c with ⟨answer | answer, d⟩ <;> rfl

theorem runOn_bind_ok {a : α} (h : work.runOn c = (.ok a, d)) (next : α → Handling β) :
    (work >>= next).runOn c = (next a).runOn d := by
  rw [runOn_bind, h]

theorem runOn_bind_error {failure : Failure} (h : work.runOn c = (.error failure, d))
    (next : α → Handling β) : (work >>= next).runOn c = (.error failure, d) := by
  rw [runOn_bind, h]

end Run

/-! ### Small steps -/

def note (record : Record) : Handling Unit :=
  modify fun c => { c with log := c.log ++ [record] }

def enter (stage : Stage) : Handling Unit := modify fun c => { c with stage := stage }

def fail {α : Type} (cause : Cause) (line : Text) : Handling α := do
  throw ((← get).failure cause line)

def reject {α : Type} (line : Text) : Handling α := do throw ((← get).unexpected line)

/-- The keywords in force; asking for them settles the language. -/
def keywords : Handling Keywords := do
  modify Cursor.settle
  return (← get).language.keywords

/-- Try one handler, and another when it does not take the line. -/
def orElse (first second : Handling Bool) : Handling Bool := do
  if ← first then return true else second

def onHeader (category : Category) (line : Text) (start : Header → Handling Unit) :
    Handling Bool := do
  match (← keywords).header? category line with
  | some (keyword, title) =>
    start ⟨keyword, title, (← get).line⟩
    return true
  | none => return false

/-! ### Tags and headers -/

def addTags (line : Text) : Handling Unit := do
  let c ← get
  match Tag.ofLine c.line line with
  | .ok tags => modify fun c => { c with tags := c.tags ++ tags }
  | .error word => fail (.badTag word) line

/-- The tags that wait, which then no longer wait. -/
def takeTags : Handling (List Tag) := do
  let c ← get
  modify fun c => { c with tags := [] }
  return c.tags

def startFeature (header : Header) : Handling Unit := do
  let tags ← takeTags
  modify fun c =>
    { c with feature := some ⟨c.source, c.language.code, .start header tags, []⟩ }
  enter .feature

def startRule (line : Text) (header : Header) : Handling Unit := do
  if (← get).feature.isNone then reject line
  else
    modify fun c => { c.closeStatement.closeRule with lastType := none }
    let tags ← takeTags
    modify fun c => { c with rule := some (.start header tags) }
    enter .rule

def startScenario (blocks : Option (List Examples)) (line : Text) (header : Header) :
    Handling Unit := do
  if (← get).group?.isNone then reject line
  else
    let tags ← takeTags
    modify (·.startStatement (.scenario ⟨header, tags, [], [], blocks⟩))
    enter .scenario

def startExamples (line : Text) (header : Header) : Handling Unit := do
  if ((← get).statement.bind (·.blocks?)).isNone then fail .examplesOutsideOutline line
  else
    let tags ← takeTags
    modify (·.mapStatement (·.mapBlocks (· ++ [⟨header, tags, none⟩])))
    modify fun c => { c with examplesOpen := true }
    enter .table

def startBackground (line : Text) (header : Header) : Handling Unit := do
  let c ← get
  if !c.tags.isEmpty then fail (.taggedBackground (c.tags.map (·.name))) line
  else if (c.group?.bind (·.background)).any (!·.steps.isEmpty) then fail .secondBackground line
  else
    modify (·.startStatement (.background ⟨header, [], []⟩))
    enter .background

/-- Tag lines, and the headers of statements that may have tags. -/
def onTaggable (line : Text) : Handling Bool :=
  if leads '@' line then do
    addTags line
    enter .tagged
    return true
  else
    ((onHeader .rule line (startRule line)).orElse
      ((onHeader .scenario line (startScenario none line)).orElse
        ((onHeader .outline line (startScenario (some []) line)).orElse
          (onHeader .examples line (startExamples line)))))

/-! ### Descriptions -/

def describeGroup (line : Text) : Handling Bool := do
  if (← get).group?.isNone then return false
  else
    modify (·.mapGroup (·.describe line))
    return true

def describeStatement (line : Text) : Handling Bool := do
  if (← get).statement.isNone then return false
  else
    modify (·.mapStatement (·.describe line))
    return true

/-! ### Steps -/

/-- The type of a step.  A type that is not taken over is what the next step may
    take over. -/
def resolve (found : StepMatch) : Handling (Option StepType) := do
  let c ← get
  if leads '*' found.spelling && c.lastType.isSome then return c.lastType
  else if found.type.isConjunction then return c.lastType
  else
    modify fun c => { c with lastType := some found.type }
    return some found.type

def parseStep (line : Text) : Handling (Option Step) := do
  match (← keywords).step? line with
  | none => return none
  | some found =>
    match ← resolve found with
    | none => fail .noPreviousStep line
    | some type => return some ⟨found.keyword, type, found.text, none, none, (← get).line⟩

/-- Take a line that is a step, and hand on any other. -/
def onStep (line : Text) (next : Handling Bool) : Handling Bool := do
  match ← parseStep line with
  | some step =>
    modify (·.mapStatement (·.addStep step))
    enter .steps
    return true
  | none => next

/-- A background header behind the steps of a background is refused. -/
def refuseBackground (line : Text) : Handling Bool := do
  let c ← get
  if c.statement.any (·.isBackground) && c.hasSteps then
    match (← keywords).header? .background line with
    | some _ => fail .secondBackground line
    | none => return false
  else return false

/-! ### Tables and docstrings -/

/-- A line that begins with a pipe, at the stage of tables. -/
def onRow (line : Text) : Handling Bool := do
  modify (·.warnOpenRow line)
  let c ← get
  let cells := Cells.read line
  match c.table with
  | none =>
    modify fun c => { c with table := some (.start cells c.line) }
    return true
  | some table =>
    match table.push? ⟨cells, c.line⟩ with
    | some table =>
      modify fun c => { c with table := some table }
      return true
    | none => fail (.raggedTable table.headings.length cells.length) line

def onFirstRow (line : Text) : Handling Bool := do
  if leads '|' line then
    if (← get).hasSteps then
      enter .table
      onRow line
    else fail .tableBeforeStep line
  else return false

def openBlock (raw : Text) (fence : Fence) (contentType : Text) : Handling Bool := do
  if (← get).hasSteps then
    modify fun c => { c with block := some (.start c.line raw fence contentType) }
    enter .docstring
    return true
  else fail .docstringBeforeStep raw

/-! ### Stages -/

def onStart (line : Text) : Handling Bool :=
  if leads '@' line then do
    addTags line
    return true
  else onHeader .feature line startFeature

def onContainer (line : Text) : Handling Bool :=
  (onTaggable line).orElse
    ((onHeader .background line (startBackground line)).orElse (describeGroup line))

def onStatement (line : Text) : Handling Bool :=
  onStep line ((onTaggable line).orElse (describeStatement line))

def onSteps (raw : Text) : Handling Bool :=
  match Fence.open? (trimStart raw) with
  | some (fence, contentType) => openBlock raw fence contentType
  | none =>
    let line := trim raw
    onStep line
      ((onTaggable line).orElse ((refuseBackground line).orElse (onFirstRow line)))

def onDocstring (raw : Text) : Handling Bool := do
  match (← get).block with
  | none => return false
  | some block =>
    if block.closes raw then
      modify (·.closeBlock)
      enter .steps
      return true
    else
      match block.push raw with
      | .ok block =>
        modify fun c => { c with block := some block }
        return true
      | .error removed => fail (.badIndent removed) raw

def onTable (raw : Text) : Handling Bool :=
  let line := trim raw
  if leads '|' line then onRow line
  else do
    modify (·.closeTable)
    enter .steps
    onSteps raw

def handler (raw : Text) : Stage → Handling Bool
  | .start => onStart (trim raw)
  | .feature | .rule => onContainer (trim raw)
  | .tagged => onTaggable (trim raw)
  | .background | .scenario => onStatement (trim raw)
  | .steps => onSteps raw
  | .docstring => onDocstring raw
  | .table => onTable raw

def dispatch (raw : Text) : Handling Bool := do handler raw (← get).stage

/-! ### Lines -/

/-- A comment counts only as a directive, above the first tag and the header of a
    feature. -/
def comment (line : Text) : Handling Unit := do
  let c ← get
  if c.stage ≠ .start ∨ c.tags ≠ [] ∨ c.entry ≠ .feature then return ()
  else
    match directive? line with
    | none => return ()
    | some code =>
      if c.fixed then note (.directiveIgnored code)
      else
        match c.catalogue.find? code with
        | none => fail (.unknownLanguage code) line
        | some language =>
          note (.directiveSelects code)
          modify fun c => { c with active := some language }

def feed (raw : Text) : Handling Unit := do
  modify fun c => { c with line := c.line + 1 }
  let c ← get
  if c.stage ≠ .docstring ∧ (trim raw).isEmpty then return ()
  else if c.stage ≠ .docstring ∧ leads '#' (trim raw) then comment (trim raw)
  else if ← dispatch raw then return ()
  else reject (trim raw)

def feedAll (raws : List Text) : Handling Unit := raws.forM feed

end Handling

end Gherkin
