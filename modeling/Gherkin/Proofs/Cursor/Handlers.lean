/-
  Gherkin/Proofs/Cursor/Handlers.lean
  ===================================
  **Handlers do what readers say.**

  A session stands for a cursor (`Session.cursor`): the mode is spread over the
  stage, the open docstring, the open table and the mark of the Examples block.
  Moves of the two correspond, and a handler that works on the cursor of a session
  answers as the readers of the mode do (`Answers`): it takes a line when one of
  them recognises it, fails as that one fails, and leaves the cursor of the session
  that the reader gives.

  Readers know the language beforehand and handlers settle it when they first need
  keywords.  A handler that needs them works as if the language had been settled
  before (`Settles`), which is how the two are brought together.
-/
import Gherkin.Cursor.Handling
import Gherkin.Proofs.Session.Slots
import Gherkin.Proofs.Text.Trimming

namespace Gherkin

open Text

/-! ## 1. The cursor of a session -/

namespace Mode

/-- The docstring whose closing fence has not been read yet. -/
def block? : Mode → Option Block
  | .docstring block => some block
  | _ => none

/-- The table that has been read so far. -/
def table? : Mode → Option Table
  | .examples table => table
  | .stepTable table => some table
  | _ => none

def examplesOpen : Mode → Bool
  | .examples _ => true
  | _ => false

/-- Nothing is being collected. -/
structure Clear (mode : Mode) : Prop where
  block : mode.block? = none
  table : mode.table? = none
  examplesOpen : mode.examplesOpen = false

theorem clear_of_isOpen {mode : Mode} (h : mode.isOpen = true) : mode.Clear := by
  cases mode <;> first | exact Bool.noConfusion h | exact ⟨rfl, rfl, rfl⟩

end Mode

namespace Session

/-- The cursor that a session stands for, behind a given log. -/
@[simps]
def cursor (s : Session) (log : List Record) : Cursor where
  entry := s.entry
  catalogue := s.catalogue
  standard := s.standard
  fixed := s.fixed
  source := s.source
  active := s.chosen
  line := s.line
  stage := s.mode.stage
  lastType := s.lastType
  tags := s.tags
  feature := s.feature
  rule := s.rule
  statement := s.statement
  block := s.mode.block?
  table := s.mode.table?
  examplesOpen := s.mode.examplesOpen
  log := log

variable {s : Session} {raw : Text} {log : List Record}

theorem mode_of_inTable (h : s.inTable = true) :
    (∃ table, s.mode = .examples table) ∨ ∃ table, s.mode = .stepTable table := by
  unfold inTable at h
  cases hs : s.mode with
  | examples table => exact .inl ⟨table, rfl⟩
  | stepTable table => exact .inr ⟨table, rfl⟩
  | _ => simp [hs] at h

theorem stage_eq_table_iff : s.mode.stage = .table ↔ s.inTable = true := by
  unfold inTable
  cases s.mode <;> simp [Mode.stage]

/-- Entering a mode in which nothing is collected is entering its stage. -/
theorem cursor_withMode (h : s.mode.Clear) (mode : Mode) (hmode : mode.Clear)
    (log : List Record) :
    { s.cursor log with stage := mode.stage } = { s with mode := mode }.cursor log := by
  unfold cursor
  rw [h.block, h.table, h.examplesOpen, hmode.block, hmode.table, hmode.examplesOpen]

theorem cursor_language (s : Session) (log : List Record) :
    (s.cursor log).language = s.language := rfl

theorem cursor_group? (s : Session) (log : List Record) : (s.cursor log).group? = s.group? := by
  obtain ⟨_, _, _, _, _, _, _, _, _, _, _ | feature, _ | rule, _⟩ := s <;> rfl

theorem cursor_mapGroup (s : Session) (f : Group → Group) (log : List Record) :
    (s.cursor log).mapGroup f = (s.mapGroup f).cursor log := by
  obtain ⟨_, _, _, _, _, _, _, _, _, _, _ | feature, _ | rule, _⟩ := s <;> rfl

theorem cursor_closeStatement (s : Session) (log : List Record) :
    (s.cursor log).closeStatement = s.closeStatement.cursor log := by
  obtain ⟨_, _, _, _, _, _, _, _, _, _, _ | feature, _ | rule, _ | statement⟩ := s <;> rfl

theorem cursor_closeRule (s : Session) (log : List Record) :
    (s.cursor log).closeRule = s.closeRule.cursor log := by
  obtain ⟨_, _, _, _, _, _, _, _, _, _, _, _ | rule, _⟩ := s <;> rfl

/-- Leaving a table closes it and goes back to the steps. -/
theorem cursor_closeTable (h : s.inTable = true) (log : List Record) :
    { (s.cursor log).closeTable with stage := .steps } = s.closeTable.cursor log := by
  obtain ⟨_, _, _, _, _, _, _, mode, _, _, _, _, _⟩ := s
  cases mode <;> first | rfl | exact Bool.noConfusion h

theorem cursor_diagnose (s : Session) (raw : Text) (log : List Record) :
    (s.cursor log).diagnose (trim raw) = s.diagnose raw := by
  unfold Cursor.diagnose diagnose backgroundReason scenarioReason groupHasScenarios
    Cursor.groupHasScenarios
  rw [cursor_group?]
  rfl

theorem cursor_unexpected (s : Session) (raw : Text) (log : List Record) :
    (s.cursor log).unexpected (trim raw) = s.unexpected raw := by
  unfold Cursor.unexpected unexpected
  rw [cursor_diagnose]
  show (⟨_, _, some (trim (trim raw)), _⟩ : Failure) = ⟨_, _, some (trim raw), _⟩
  rw [trim_trim]
  rfl

theorem cursor_failure (s : Session) (cause : Cause) (raw : Text) (log : List Record) :
    (s.cursor log).failure cause (trim raw) = s.failure cause raw := by
  show (⟨_, _, some (trim (trim raw)), _⟩ : Failure) = ⟨_, _, some (trim raw), _⟩
  rw [trim_trim]
  rfl

/-! ## 2. Settling the language -/

theorem settle_of_chosen (h : s.chosen.isSome = true) (log : List Record) :
    (s.cursor log).settle = s.cursor log := by
  obtain ⟨language, hchosen⟩ := Option.isSome_iff_exists.mp h
  have hactive : (s.cursor log).active = some language := hchosen
  rw [Cursor.settle, hactive]

/-- Settling puts the language of the session in force, and logs the standard one. -/
theorem cursor_settle (s : Session) (log : List Record) :
    (s.cursor log).settle =
      { s with chosen := some s.language }.cursor
        (log ++ if s.chosen.isNone then [Record.standardLanguage s.standard.code] else []) := by
  obtain ⟨_, _, _, _, _, _ | chosen, _, _, _, _, _, _, _⟩ := s
  · rfl
  · show _ = cursor _ (log ++ [])
    rw [List.append_nil]
    rfl

end Session

namespace Cursor

theorem settle_settle (c : Cursor) : c.settle.settle = c.settle := by
  obtain ⟨_, _, _, _, _, _ | language, _, _, _, _, _, _, _, _, _, _, _⟩ := c <;> rfl

theorem language_settle (c : Cursor) : c.settle.language = c.language := by
  obtain ⟨_, _, _, _, _, _ | language, _, _, _, _, _, _, _, _, _, _, _⟩ := c <;> rfl

theorem settle_withStage (c : Cursor) (stage : Stage) :
    { c with stage := stage }.settle = { c.settle with stage := stage } := by
  obtain ⟨_, _, _, _, _, _ | language, _, _, _, _, _, _, _, _, _, _, _⟩ := c <;> rfl

theorem warnOpenRow_withStage (c : Cursor) (stage : Stage) (line : Text) :
    { c with stage := stage }.warnOpenRow line = { c.warnOpenRow line with stage := stage } := by
  unfold warnOpenRow
  split <;> rfl

theorem closeTable_settle (c : Cursor) : c.settle.closeTable = c.closeTable.settle := by
  obtain ⟨_, _, _, _, _, _ | language, _, _, _, _, _, _, _, _, _ | table, _ | _, _⟩ := c <;> rfl

end Cursor

namespace Handling

variable {α β : Type} {s : Session} {raw : Text} {log : List Record}

theorem runOn_keywords (c : Cursor) :
    keywords.runOn c = (.ok c.language.keywords, c.settle) := by
  rw [← c.language_settle]
  rfl

/-- Work that needs keywords before anything else. -/
def Settles (work : Handling α) : Prop := ∀ c : Cursor, work.runOn c = work.runOn c.settle

theorem Settles.keywords_bind (next : Keywords → Handling α) : Settles (keywords >>= next) := by
  intro c
  rw [runOn_bind_ok (runOn_keywords c), runOn_bind_ok (runOn_keywords c.settle),
    c.language_settle, c.settle_settle]

theorem Settles.bind {work : Handling α} (h : Settles work) (next : α → Handling β) :
    Settles (work >>= next) := by
  intro c
  rw [runOn_bind, runOn_bind, h c]

theorem Settles.orElse {first : Handling Bool} (h : Settles first) (second : Handling Bool) :
    Settles (first.orElse second) := h.bind _

theorem Settles.onHeader (category : Category) (line : Text) (start : Header → Handling Unit) :
    Settles (onHeader category line start) := .keywords_bind _

theorem Settles.onStep (line : Text) (next : Handling Bool) : Settles (onStep line next) :=
  Settles.bind (.keywords_bind _) _

/-! ## 3. Answers -/

/-- Work that ends a line agrees with the session that it should give. -/
def Agrees (log : List Record) (outcome : Except Failure Unit × Cursor) :
    Except Failure Session → Prop
  | .ok t => outcome = (.ok (), t.cursor log)
  | .error failure => outcome.1 = .error failure ∧ outcome.2.log = log

theorem Agrees.log_eq {outcome : Except Failure Unit × Cursor} {answer : Except Failure Session}
    (h : Agrees log outcome answer) : outcome.2.log = log := by
  cases answer with
  | ok t => rw [show outcome = _ from h]; rfl
  | error failure => exact h.2

/-- A handler that has worked on the cursor of a session answers as readers do. -/
def Answers (s : Session) (log : List Record) (outcome : Except Failure Bool × Cursor) :
    Option (Except Failure Session) → Prop
  | none => outcome = (.ok false, s.cursor log)
  | some (.ok t) => outcome = (.ok true, t.cursor log)
  | some (.error failure) => outcome.1 = .error failure ∧ outcome.2.log = log

theorem recognise_nil (s : Session) (raw : Text) : recognise [] s raw = none := rfl

theorem recognise_cons (reader : Reader) (readers : List Reader) (s : Session) (raw : Text) :
    recognise (reader :: readers) s raw = (reader s raw).or (recognise readers s raw) := by
  unfold recognise
  rw [List.findSome?_cons]
  cases reader s raw <;> rfl

theorem recognise_append (readers more : List Reader) (s : Session) (raw : Text) :
    recognise (readers ++ more) s raw = (recognise readers s raw).or (recognise more s raw) :=
  List.findSome?_append

/-- What is tried in turn answers in turn.  The second handler may add to the log, as
    long as it does so only when the first one hands the line on. -/
theorem Answers.orElse {first second : Handling Bool} {later : List Record}
    {answer other : Option (Except Failure Session)}
    (h : Answers s log (first.runOn (s.cursor log)) answer) (hlog : answer ≠ none → later = log)
    (hnext : answer = none → Answers s later (second.runOn (s.cursor log)) other) :
    Answers s later ((first.orElse second).runOn (s.cursor log)) (answer.or other) := by
  unfold Handling.orElse
  rw [runOn_bind]
  rcases answer with _ | failure | t
  · rw [show first.runOn (s.cursor log) = _ from h]
    exact hnext rfl
  · obtain ⟨hfails, hkept⟩ := h
    have hfirst : first.runOn (s.cursor log) = (.error failure, _) := Prod.ext hfails rfl
    rw [hfirst, hlog (Option.some_ne_none _)]
    exact ⟨rfl, hkept⟩
  · rw [show first.runOn (s.cursor log) = _ from h, hlog (Option.some_ne_none _)]
    rfl

/-- Work that ends a line is done when the line is taken. -/
theorem Agrees.answers {work : Handling Unit} {c : Cursor} {answer : Except Failure Session}
    (h : Agrees log (work.runOn c) answer) :
    Answers s log ((work >>= fun _ => pure true).runOn c) (some answer) := by
  cases answer with
  | ok t =>
    rw [runOn_bind_ok h]
    exact rfl
  | error failure =>
    obtain ⟨hfails, hlog⟩ := h
    rw [runOn_bind_error (Prod.ext hfails rfl)]
    exact ⟨rfl, hlog⟩

/-- A header is taken as what starts there agrees. -/
theorem answers_onHeader {category : Category} {start : Header → Handling Unit}
    {answer : Header → Except Failure Session} (hsettled : s.chosen.isSome = true)
    (h : ∀ header, Agrees log ((start header).runOn (s.cursor log)) (answer header)) :
    Answers s log ((onHeader category (trim raw) start).runOn (s.cursor log))
      ((s.header? category raw).map answer) := by
  unfold onHeader Session.header? Session.keywords
  rw [runOn_bind_ok (runOn_keywords _), Session.settle_of_chosen hsettled, s.cursor_language]
  cases s.language.keywords.header? category (trim raw) with
  | none => exact rfl
  | some found => exact (h ⟨found.1, found.2, s.line⟩).answers

/-! ## 4. Tags and headers -/

theorem runOn_reject (line : Text) (c : Cursor) :
    (reject line : Handling α).runOn c = (.error (c.unexpected line), c) := rfl

theorem runOn_fail (cause : Cause) (line : Text) (c : Cursor) :
    (fail cause line : Handling α).runOn c = (.error (c.failure cause line), c) := rfl

theorem agrees_reject (s : Session) (raw : Text) (log : List Record) :
    Agrees log ((reject (trim raw)).runOn (s.cursor log)) (.error (s.unexpected raw)) := by
  rw [runOn_reject, s.cursor_unexpected]
  exact ⟨rfl, rfl⟩

theorem agrees_fail (s : Session) (cause : Cause) (raw : Text) (log : List Record) :
    Agrees log ((fail cause (trim raw)).runOn (s.cursor log)) (.error (s.failure cause raw)) := by
  rw [runOn_fail, s.cursor_failure]
  exact ⟨rfl, rfl⟩

theorem runOn_addTags (line : Text) (c : Cursor) :
    (addTags line).runOn c =
      match Tag.ofLine c.line line with
      | .ok tags => (.ok (), { c with tags := c.tags ++ tags })
      | .error word => (.error (c.failure (.badTag word) line), c) := by
  unfold addTags
  rw [runOn_bind_ok (runOn_get c)]
  cases Tag.ofLine c.line line <;> rfl

theorem agrees_startFeature (h : s.mode = .start) (header : Header) :
    Agrees log ((startFeature header).runOn (s.cursor log))
      (.ok { s with
        feature := some ⟨s.source, s.language.code, .start header s.tags, []⟩
        tags := []
        mode := .feature }) := by
  let started : Session := { s with
    feature := some ⟨s.source, s.language.code, .start header s.tags, []⟩, tags := [] }
  have hclear : started.mode.Clear := h ▸ ⟨rfl, rfl, rfl⟩
  have hentered := Session.cursor_withMode hclear .feature ⟨rfl, rfl, rfl⟩ log
  exact Prod.ext rfl hentered

theorem agrees_startRule (h : s.mode.isOpen = true) (raw : Text) (header : Header) :
    Agrees log ((startRule (trim raw) header).runOn (s.cursor log))
      (if s.feature.isNone then .error (s.unexpected raw)
      else
        .ok { s.closeStatement.closeRule with
          rule := some (.start header s.tags)
          tags := []
          lastType := none
          mode := .rule }) := by
  unfold startRule
  rw [runOn_bind_ok (runOn_get _)]
  rw [Session.cursor_feature]
  split
  · exact agrees_reject s raw log
  · have hkept : s.closeStatement.closeRule.mode = s.mode ∧
        s.closeStatement.closeRule.tags = s.tags := by
      rw [Session.closeRule_eq, Session.closeStatement_eq]
      exact ⟨rfl, rfl⟩
    let started : Session := { s.closeStatement.closeRule with
      rule := some (.start header s.tags), tags := [], lastType := none }
    have hopen : started.mode.isOpen = true := hkept.1 ▸ h
    have hentered := Session.cursor_withMode (Mode.clear_of_isOpen hopen) .rule
      ⟨rfl, rfl, rfl⟩ log
    change (Except.ok (), { (s.cursor log).closeStatement.closeRule with
      lastType := none, tags := [], stage := .rule
      rule := some (.start header (s.cursor log).closeStatement.closeRule.tags) }) = _
    rw [Session.cursor_closeStatement, Session.cursor_closeRule]
    change (Except.ok (), { s.closeStatement.closeRule.cursor log with
      lastType := none, tags := [], stage := .rule
      rule := some (.start header s.closeStatement.closeRule.tags) }) = _
    rw [hkept.2]
    exact Prod.ext rfl hentered

/-- Opening a statement and entering its stage. -/
theorem cursor_startStatement (h : s.mode.isOpen = true) (statement : Statement) (mode : Mode)
    (hmode : mode.isOpen = true) (log : List Record) :
    { (s.cursor log).startStatement statement with stage := mode.stage } =
      (s.startStatement statement mode).cursor log := by
  have hopen : s.closeStatement.mode.isOpen = true := by
    rw [Session.closeStatement_eq]
    exact h
  let started : Session :=
    { s.closeStatement with statement := some statement, lastType := none }
  rw [Cursor.startStatement, Session.cursor_closeStatement]
  exact Session.cursor_withMode (s := started) (Mode.clear_of_isOpen hopen) mode
    (Mode.clear_of_isOpen hmode) log

theorem agrees_startScenario (h : s.mode.isOpen = true) (blocks : Option (List Examples))
    (raw : Text) (header : Header) :
    Agrees log ((startScenario blocks (trim raw) header).runOn (s.cursor log))
      (if s.group?.isNone then .error (s.unexpected raw)
      else
        .ok { s.startStatement (.scenario ⟨header, s.tags, [], [], blocks⟩) .scenario with
          tags := [] }) := by
  unfold startScenario
  rw [runOn_bind_ok (runOn_get _), s.cursor_group?]
  split
  · exact agrees_reject s raw log
  · let untagged : Session := { s with tags := [] }
    let statement : Statement := .scenario ⟨header, s.tags, [], [], blocks⟩
    have hentered := cursor_startStatement (s := untagged) h statement .scenario rfl log
    have huntagged : { s.startStatement statement .scenario with tags := [] } =
        untagged.startStatement statement .scenario := by
      rw [Session.startStatement_eq, Session.startStatement_eq, Session.closeStatement_eq,
        Session.closeStatement_eq]
    rw [huntagged]
    exact Prod.ext rfl hentered

theorem agrees_startExamples (h : s.mode.isOpen = true) (raw : Text) (header : Header) :
    Agrees log ((startExamples (trim raw) header).runOn (s.cursor log))
      (if (s.statement.bind (·.blocks?)).isNone then .error (s.failure .examplesOutsideOutline raw)
      else
        .ok { s.mapStatement (·.mapBlocks (· ++ [⟨header, s.tags, none⟩])) with
          tags := []
          mode := .examples none }) := by
  unfold startExamples
  rw [runOn_bind_ok (runOn_get _)]
  rw [Session.cursor_statement]
  split
  · exact agrees_fail s _ raw log
  · obtain ⟨hblock, htable, -⟩ := Mode.clear_of_isOpen h
    change (Except.ok (), { ({ s.cursor log with tags := [] } : Cursor).mapStatement
        (·.mapBlocks (· ++ [⟨header, s.tags, none⟩])) with
      examplesOpen := true, stage := .table }) = _
    unfold Cursor.mapStatement Session.cursor
    rw [hblock, htable]
    rfl

theorem agrees_startBackground (h : s.mode.isOpen = true) (raw : Text) (header : Header) :
    Agrees log ((startBackground (trim raw) header).runOn (s.cursor log))
      (if !s.tags.isEmpty then .error (s.failure (.taggedBackground (s.tags.map (·.name))) raw)
      else if (s.group?.bind (·.background)).any (!·.steps.isEmpty) then
        .error (s.failure .secondBackground raw)
      else .ok (s.startStatement (.background ⟨header, [], []⟩) .background)) := by
  unfold startBackground
  rw [runOn_bind_ok (runOn_get _), s.cursor_group?, Session.cursor_tags]
  split
  · exact agrees_fail s _ raw log
  split
  · exact agrees_fail s _ raw log
  · exact Prod.ext rfl (cursor_startStatement h _ .background rfl log)

/-- A line of tags, whatever the handler does behind it. -/
theorem answers_addTags {work : Handling Bool} {t : List Tag → Session}
    (h : ∀ tags, work.runOn { s.cursor log with tags := s.tags ++ tags } =
      (.ok true, (t tags).cursor log)) :
    Answers s log ((addTags (trim raw) >>= fun _ => work).runOn (s.cursor log))
      (some (match Tag.ofLine s.line (trim raw) with
        | .ok tags => .ok (t tags)
        | .error word => .error (s.failure (.badTag word) raw))) := by
  rw [runOn_bind, runOn_addTags, Session.cursor_line]
  cases Tag.ofLine s.line (trim raw) with
  | ok tags => exact h tags
  | error word => exact ⟨congrArg _ (s.cursor_failure _ raw log), rfl⟩

theorem answers_onTaggable (h : s.mode.isOpen = true)
    (hsettled : leads '@' (trim raw) = false → s.chosen.isSome = true) (log : List Record) :
    Answers s log ((onTaggable (trim raw)).runOn (s.cursor log))
      (recognise taggableReaders s raw) := by
  unfold onTaggable taggableReaders
  rw [recognise_cons]
  by_cases hlead : leads '@' (trim raw) = true
  · have hmode : s.mode ≠ .start := fun hstart => by simp [hstart, Mode.isOpen] at h
    rw [if_pos hlead, Reader.tagLine, if_pos hlead, if_neg hmode]
    apply answers_addTags
    intro tags
    exact Prod.ext rfl (Session.cursor_withMode (s := { s with tags := s.tags ++ tags })
      (Mode.clear_of_isOpen h) .tagged ⟨rfl, rfl, rfl⟩ log)
  · have hchosen := hsettled (by simpa using hlead)
    rw [if_neg hlead, Reader.tagLine, if_neg hlead]
    simp only [recognise_cons, recognise_nil, Option.none_or, Option.or_none]
    refine (answers_onHeader hchosen (agrees_startRule h raw)).orElse (fun _ => rfl) fun _ => ?_
    refine (answers_onHeader hchosen (agrees_startScenario h none raw)).orElse (fun _ => rfl) fun _ => ?_
    refine (answers_onHeader hchosen (agrees_startScenario h (some []) raw)).orElse (fun _ => rfl) fun _ => ?_
    exact answers_onHeader hchosen (agrees_startExamples h raw)

theorem answers_onStart (h : s.mode = .start)
    (hsettled : leads '@' (trim raw) = false → s.chosen.isSome = true) (log : List Record) :
    Answers s log ((onStart (trim raw)).runOn (s.cursor log))
      (recognise [Reader.tagLine, Reader.featureHeader] s raw) := by
  unfold onStart
  rw [recognise_cons]
  by_cases hlead : leads '@' (trim raw) = true
  · rw [if_pos hlead, Reader.tagLine, if_pos hlead, if_pos h]
    apply answers_addTags
    intro tags
    have hstays : { s with tags := s.tags ++ tags, mode := .start } =
        { s with tags := s.tags ++ tags } := by rw [← h]
    rw [hstays]
    rfl
  · have hchosen := hsettled (by simpa using hlead)
    rw [if_neg hlead, Reader.tagLine, if_neg hlead]
    simp only [recognise_cons, recognise_nil, Option.none_or, Option.or_none]
    exact answers_onHeader hchosen (agrees_startFeature h)

/-! ## 5. Descriptions and steps -/

theorem answers_describeGroup (s : Session) (raw : Text) (log : List Record) :
    Answers s log ((describeGroup (trim raw)).runOn (s.cursor log))
      (Reader.groupDescription s raw) := by
  unfold describeGroup Reader.groupDescription
  rw [runOn_bind_ok (runOn_get _), s.cursor_group?]
  cases s.group? with
  | none => exact rfl
  | some group => exact Prod.ext rfl (s.cursor_mapGroup _ log)

theorem answers_describeStatement (s : Session) (raw : Text) (log : List Record) :
    Answers s log ((describeStatement (trim raw)).runOn (s.cursor log))
      (Reader.statementDescription s raw) := by
  unfold describeStatement Reader.statementDescription
  rw [runOn_bind_ok (runOn_get _), Session.cursor_statement]
  cases s.statement with
  | none => exact rfl
  | some statement => exact rfl

theorem runOn_resolve (found : StepMatch) (c : Cursor) :
    (resolve found).runOn c =
      (.ok (found.resolve c.lastType), { c with lastType := found.resolve c.lastType }) := by
  unfold resolve StepMatch.resolve StepType.resolve
  rw [runOn_bind_ok (runOn_get c)]
  split
  · rfl
  split <;> rfl

theorem isOpen_of_hasStepLines {mode : Mode} (h : mode.hasStepLines = true) :
    mode.isOpen = true := by
  cases mode <;> first | rfl | exact Bool.noConfusion h

theorem runOn_parseStep (hsettled : s.chosen.isSome = true) (raw : Text) (log : List Record) :
    (parseStep (trim raw)).runOn (s.cursor log) =
      match s.keywords.step? (trim raw) with
      | none => (.ok none, s.cursor log)
      | some found =>
        match found.resolve s.lastType with
        | none => (.error (s.failure .noPreviousStep raw), { s.cursor log with lastType := none })
        | some type =>
          (.ok (some ⟨found.keyword, type, found.text, none, none, s.line⟩),
            { s.cursor log with lastType := some type }) := by
  unfold parseStep Session.keywords
  rw [runOn_bind_ok (runOn_keywords _), Session.settle_of_chosen hsettled, s.cursor_language]
  cases s.language.keywords.step? (trim raw) with
  | none => rfl
  | some found =>
    simp only
    rw [runOn_bind_ok (runOn_resolve found _), Session.cursor_lastType]
    cases found.resolve s.lastType with
    | none => exact congrArg (Except.error ·, _) (s.cursor_failure .noPreviousStep raw log)
    | some type => rfl

/-- A step is taken where steps can stand, and any other line is handed on. -/
theorem answers_onStep (h : s.mode.hasStepLines = true) (hsettled : s.chosen.isSome = true)
    {next : Handling Bool} {later : List Record} {answer : Option (Except Failure Session)}
    (hlog : Reader.stepLine s raw ≠ none → later = log)
    (hnext : Reader.stepLine s raw = none → Answers s later (next.runOn (s.cursor log)) answer) :
    Answers s later ((onStep (trim raw) next).runOn (s.cursor log))
      ((Reader.stepLine s raw).or answer) := by
  unfold onStep Reader.stepLine at *
  rw [runOn_bind, runOn_parseStep hsettled]
  cases hfound : s.keywords.step? (trim raw) with
  | none =>
    rw [hfound] at hnext
    exact hnext rfl
  | some found =>
    rw [hfound] at hlog
    rw [hlog (Option.some_ne_none _), Option.map_some, Option.some_or]
    dsimp only
    cases found.resolve s.lastType with
    | none => exact ⟨rfl, rfl⟩
    | some type =>
      let taken : Session := { s with lastType := some type }
      exact Prod.ext rfl (Session.cursor_withMode
        (s := taken.mapStatement (·.addStep ⟨found.keyword, type, found.text, none, none, s.line⟩))
        (Mode.clear_of_isOpen (isOpen_of_hasStepLines h)) .steps ⟨rfl, rfl, rfl⟩ log)

theorem answers_refuseBackground (hsettled : s.chosen.isSome = true) (raw : Text)
    (log : List Record) :
    Answers s log ((refuseBackground (trim raw)).runOn (s.cursor log))
      (Reader.repeatedBackground s raw) := by
  unfold refuseBackground Reader.repeatedBackground Session.header? Session.keywords
  rw [runOn_bind_ok (runOn_get _)]
  change Answers s log (runOn (if s.statement.any (·.isBackground) && s.hasSteps then _ else _) _) _
  cases s.statement.any (·.isBackground) && s.hasSteps with
  | false => exact rfl
  | true =>
    rw [if_pos rfl, runOn_bind_ok (runOn_keywords _), Session.settle_of_chosen hsettled,
      s.cursor_language]
    cases s.language.keywords.header? .background (trim raw) with
    | none => exact rfl
    | some found => exact ⟨congrArg _ (s.cursor_failure .secondBackground raw log), rfl⟩

/-! ## 6. Tables -/

theorem cursor_warnOpenRow (h : s.readsRow raw = true) (log : List Record) :
    (s.cursor log).warnOpenRow (trim raw) = s.cursor (log ++ s.rowNote raw) := by
  rw [Session.rowNote, h, Cursor.warnOpenRow]
  cases ends '|' (trim raw) with
  | true => exact congrArg s.cursor (List.append_nil _).symm
  | false => rfl

/-- A row begins a table or goes on with one. -/
theorem runOn_onRow (line : Text) (c : Cursor) :
    (onRow line).runOn c =
      match c.table with
      | none =>
        (.ok true, { c.warnOpenRow line with table := some (.start (Cells.read line) c.line) })
      | some table =>
        match table.push? ⟨Cells.read line, c.line⟩ with
        | some table => (.ok true, { c.warnOpenRow line with table := some table })
        | none =>
          (.error (c.failure (.raggedTable table.headings.length (Cells.read line).length) line),
            c.warnOpenRow line) := by
  have hkept : (c.warnOpenRow line).table = c.table ∧ (c.warnOpenRow line).line = c.line ∧
      ∀ cause, (c.warnOpenRow line).failure cause line = c.failure cause line := by
    unfold Cursor.warnOpenRow
    split <;> exact ⟨rfl, rfl, fun _ => rfl⟩
  obtain ⟨htable, hline, hfailure⟩ := hkept
  unfold onRow
  rw [runOn_bind_ok (runOn_modify _ _), runOn_bind_ok (runOn_get _), ← htable, ← hline]
  simp only [← hfailure]
  cases (c.warnOpenRow line).table with
  | none => rfl
  | some table =>
    dsimp only
    cases table.push? ⟨Cells.read line, (c.warnOpenRow line).line⟩ <;> rfl

/-- Inside a table a row belongs to it. -/
theorem answers_onRow (h : s.inTable = true) (hlead : leads '|' (trim raw) = true)
    (log : List Record) :
    Answers s (log ++ s.rowNote raw) ((onRow (trim raw)).runOn (s.cursor log))
      (recognise s.mode.readers s raw) := by
  have hreads : s.readsRow raw = true := by
    simp only [Session.readsRow, h, hlead, Bool.true_or, Bool.and_true]
  rw [runOn_onRow, cursor_warnOpenRow hreads]
  simp only [Session.cursor_table, Session.cursor_line, s.cursor_failure]
  cases hs : s.mode with
  | examples table =>
    rw [Mode.readers, recognise_cons, recognise_nil, Option.or_none]
    cases table with
    | none =>
      unfold Session.cursor
      rw [hs]
      rfl
    | some table =>
      dsimp only [Mode.table?, Reader.examplesRow, Reader.nextRow]
      cases table.push? ⟨Cells.read (trim raw), s.line⟩ with
      | none => exact ⟨rfl, rfl⟩
      | some next =>
        unfold Session.cursor
        rw [hs]
        rfl
  | stepTable table =>
    rw [Mode.readers, recognise_cons, recognise_nil, Option.or_none]
    dsimp only [Mode.table?, Reader.nextRow]
    cases table.push? ⟨Cells.read (trim raw), s.line⟩ with
    | none => exact ⟨rfl, rfl⟩
    | some next =>
      unfold Session.cursor
      rw [hs]
      rfl
  | _ => simp [Session.inTable, hs] at h

theorem rowNote_eq_nil (h : s.mode = .steps) (hfront : recognise stepReaders s raw ≠ none) :
    s.rowNote raw = [] := by
  have hreads : s.readsRow raw = false := by
    have hsome : (recognise stepReaders s raw).isNone = false :=
      Bool.eq_false_iff.mpr fun hnone => hfront (Option.isNone_iff_eq_none.mp hnone)
    simp [Session.readsRow, Session.inTable, h, hsome]
  rw [Session.rowNote, hreads]
  rfl

/-- The first row below a step opens a table. -/
theorem answers_onFirstRow (h : s.mode = .steps) (hfront : recognise stepReaders s raw = none)
    (log : List Record) :
    Answers s (log ++ s.rowNote raw) ((onFirstRow (trim raw)).runOn (s.cursor log))
      (Reader.firstRow s raw) := by
  have hclear : s.mode.Clear := Mode.clear_of_isOpen (by rw [h]; rfl)
  have hreads : s.readsRow raw = (leads '|' (trim raw) && s.hasSteps) := by
    simp [Session.readsRow, Session.inTable, h, hfront]
  unfold onFirstRow Reader.firstRow
  cases hlead : leads '|' (trim raw) with
  | false =>
    rw [hlead, Bool.false_and] at hreads
    rw [Session.rowNote, hreads, Bool.false_and]
    exact congrArg (fun log => (Except.ok false, s.cursor log)) (List.append_nil log).symm
  | true =>
    rw [if_pos rfl, if_pos rfl, runOn_bind_ok (runOn_get _)]
    change Answers s _ (runOn (if s.hasSteps then _ else _) _) _
    cases hsteps : s.hasSteps with
    | false =>
      rw [hlead, hsteps, Bool.and_false] at hreads
      rw [Session.rowNote, hreads, Bool.false_and]
      exact ⟨congrArg _ (s.cursor_failure .tableBeforeStep raw log), (List.append_nil log).symm⟩
    | true =>
      rw [hlead, hsteps, Bool.and_true] at hreads
      have hwarned := cursor_warnOpenRow hreads log
      rw [if_pos rfl, if_pos rfl]
      change Answers s _ ((onRow (trim raw)).runOn { s.cursor log with stage := .table }) _
      rw [runOn_onRow, Cursor.warnOpenRow_withStage, hwarned]
      simp only [Session.cursor_table, hclear.table]
      unfold Session.cursor
      rw [hclear.block, hclear.examplesOpen]
      rfl

end Handling

end Gherkin
