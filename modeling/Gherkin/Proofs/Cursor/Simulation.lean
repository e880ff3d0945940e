/-
  Gherkin/Proofs/Cursor/Simulation.lean
  =====================================
  **Reading on a cursor is reading a session.**

  Each stage has its handler and each mode its readers, and the two answer alike
  (`answers_dispatch`).  A line read on the cursor of a session therefore leaves
  the cursor of the session that reading the line gives, with what reading logs
  behind what was logged before (`agrees_feed`), and so does a whole text
  (`agrees_feedAll`).

  A line that is tested against keywords is given to a handler that asks for them
  before anything else (`settles_handler`), so settling the language when the line
  is counted comes to the same.
-/
import Gherkin.Proofs.Cursor.Handlers

namespace Gherkin

open Text

namespace Handling

variable {s : Session} {raw : Text} {log : List Record}

/-! ## 1. Stages -/

theorem answers_openBlock (h : s.mode = .steps) {fence : Fence} {contentType : Text}
    (hopen : Fence.open? (trimStart raw) = some (fence, contentType)) (log : List Record) :
    Answers s log ((openBlock raw fence contentType).runOn (s.cursor log))
      (Reader.fenceLine s raw) := by
  have hclear : s.mode.Clear := Mode.clear_of_isOpen (by rw [h]; rfl)
  unfold openBlock Reader.fenceLine
  rw [runOn_bind_ok (runOn_get _), hopen, Option.map_some]
  change Answers s log (runOn (if s.hasSteps then _ else _) _) (some (if s.hasSteps then _ else _))
  cases s.hasSteps with
  | false => exact ⟨rfl, rfl⟩
  | true =>
    change (Except.ok true, { s.cursor log with
      block := some (.start s.line raw fence contentType), stage := .docstring }) = _
    unfold Session.cursor
    rw [hclear.table, hclear.examplesOpen]
    rfl

theorem answers_onContainer (h : s.mode = .feature ∨ s.mode = .rule)
    (hsettled : leads '@' (trim raw) = false → s.chosen.isSome = true) (log : List Record) :
    Answers s log ((onContainer (trim raw)).runOn (s.cursor log))
      (recognise (taggableReaders ++ [Reader.backgroundHeader, Reader.groupDescription]) s raw) := by
  have hopen : s.mode.isOpen = true := by rcases h with h | h <;> rw [h] <;> rfl
  rw [recognise_append]
  refine (answers_onTaggable hopen hsettled log).orElse (fun _ => rfl) fun hnone => ?_
  -- a line of tags has been taken, so what is handed on needs keywords
  have htagless : leads '@' (trim raw) = false := by
    by_contra hlead
    rw [taggableReaders, recognise_cons, Reader.tagLine,
      if_pos (Bool.not_eq_false _ ▸ hlead)] at hnone
    exact Option.some_ne_none _ hnone
  rw [recognise_cons, recognise_cons, recognise_nil, Option.or_none]
  refine (answers_onHeader (hsettled htagless) (agrees_startBackground hopen raw)).orElse
    (fun _ => rfl) fun _ => ?_
  exact answers_describeGroup s raw log

theorem answers_onStatement (h : s.mode = .background ∨ s.mode = .scenario)
    (hsettled : s.chosen.isSome = true) (log : List Record) :
    Answers s log ((onStatement (trim raw)).runOn (s.cursor log))
      (recognise (Reader.stepLine :: (taggableReaders ++ [Reader.statementDescription])) s raw) := by
  have hsteps : s.mode.hasStepLines = true := by rcases h with h | h <;> rw [h] <;> rfl
  rw [recognise_cons, recognise_append, recognise_cons, recognise_nil, Option.or_none]
  refine answers_onStep hsteps hsettled (fun _ => rfl) fun _ => ?_
  refine (answers_onTaggable (isOpen_of_hasStepLines hsteps) (fun _ => hsettled) log).orElse
    (fun _ => rfl) fun _ => ?_
  exact answers_describeStatement s raw log

theorem answers_onSteps (h : s.mode = .steps)
    (hsettled : Fence.open? (trimStart raw) = none → s.chosen.isSome = true) (log : List Record) :
    Answers s (log ++ s.rowNote raw) ((onSteps raw).runOn (s.cursor log))
      (recognise (stepReaders ++ [Reader.firstRow]) s raw) := by
  have hsteps : s.mode.hasStepLines = true := by rw [h]; rfl
  -- a row is noted only when nothing else takes the line
  have hquiet : recognise stepReaders s raw ≠ none → log ++ s.rowNote raw = log := by
    intro hfront
    rw [rowNote_eq_nil h hfront, List.append_nil]
  have hfront : recognise stepReaders s raw =
      (Reader.fenceLine s raw).or ((Reader.stepLine s raw).or
        ((recognise taggableReaders s raw).or (Reader.repeatedBackground s raw))) := by
    rw [show stepReaders = Reader.fenceLine :: Reader.stepLine ::
      (taggableReaders ++ [Reader.repeatedBackground]) from rfl, recognise_cons, recognise_cons,
      recognise_append, recognise_cons, recognise_nil, Option.or_none]
  rw [recognise_append, recognise_cons, recognise_nil, Option.or_none]
  unfold onSteps
  cases hopen : Fence.open? (trimStart raw) with
  | some found =>
    obtain ⟨fence, contentType⟩ := found
    have htaken : ∃ answer, Reader.fenceLine s raw = some answer := by
      unfold Reader.fenceLine
      rw [hopen]
      exact ⟨_, rfl⟩
    obtain ⟨answer, hanswer⟩ := htaken
    rw [hanswer, Option.some_or] at hfront
    rw [hquiet (by rw [hfront]; exact Option.some_ne_none _), hfront, Option.some_or, ← hanswer]
    exact answers_openBlock h hopen log
  | none =>
    have hfence : Reader.fenceLine s raw = none := by
      unfold Reader.fenceLine
      rw [hopen]
      rfl
    have hchosen := hsettled hopen
    rw [hfence, Option.none_or] at hfront
    rw [hfront] at hquiet
    rw [hfront, Option.or_assoc, Option.or_assoc]
    have hleft {a b : Option (Except Failure Session)} (ha : a ≠ none) : a.or b ≠ none :=
      fun hor => ha (Option.or_eq_none_iff.mp hor).1
    refine answers_onStep hsteps hchosen (fun hstep => hquiet (hleft hstep)) fun hstep => ?_
    rw [hstep, Option.none_or] at hfront hquiet
    refine (answers_onTaggable (isOpen_of_hasStepLines hsteps) (fun _ => hchosen) log).orElse
      (fun htaggable => hquiet (hleft htaggable)) fun htaggable => ?_
    rw [htaggable, Option.none_or] at hfront hquiet
    refine (answers_refuseBackground hchosen raw log).orElse hquiet fun hrefuse => ?_
    exact answers_onFirstRow h (hfront.trans hrefuse) log

theorem answers_onDocstring {block : Block} (h : s.mode = .docstring block) (log : List Record) :
    Answers s log ((onDocstring raw).runOn (s.cursor log))
      (recognise [Reader.docstringLine block] s raw) := by
  have hblock : s.mode.block? = some block := by rw [h, Mode.block?]
  rw [recognise_cons, recognise_nil, Option.or_none, Reader.docstringLine]
  unfold onDocstring
  rw [runOn_bind_ok (runOn_get _), Session.cursor_block, hblock]
  cases hcloses : block.closes raw with
  | true =>
    simp only [hcloses, if_true]
    change (Except.ok true, { (s.cursor log).closeBlock with stage := .steps }) = _
    unfold Cursor.closeBlock
    rw [Session.cursor_block, hblock]
    unfold Session.cursor
    rw [h]
    rfl
  | false =>
    simp only [hcloses, Bool.false_eq_true, if_false]
    cases block.push raw with
    | error removed => exact ⟨rfl, rfl⟩
    | ok next =>
      change (Except.ok true, { s.cursor log with block := some next }) = _
      unfold Session.cursor
      rw [h]
      rfl

theorem rowNote_eq_nil_of_leads (h : leads '|' (trim raw) = false) : s.rowNote raw = [] := by
  rw [Session.rowNote, Session.readsRow, h]
  rfl

/-- A line that is no row ends the table and goes to the steps. -/
theorem answers_onTable (h : s.inTable = true)
    (hsettled : leads '|' (trim raw) = false → Fence.open? (trimStart raw) = none →
      s.chosen.isSome = true) (log : List Record) :
    Answers (s.leaveTable raw) (log ++ s.rowNote raw) ((onTable raw).runOn (s.cursor log))
      (recognise (s.leaveTable raw).mode.readers (s.leaveTable raw) raw) := by
  unfold onTable Session.leaveTable
  dsimp only
  cases hlead : leads '|' (trim raw) with
  | true =>
    simp only [Bool.not_true, Bool.and_false, Bool.false_eq_true, if_false, if_true]
    exact answers_onRow h hlead log
  | false =>
    simp only [h, Bool.not_false, Bool.and_true, Bool.false_eq_true, if_false, if_true]
    change Answers _ _ ((onSteps raw).runOn { (s.cursor log).closeTable with stage := .steps }) _
    rw [Session.cursor_closeTable h, rowNote_eq_nil_of_leads hlead,
      ← rowNote_eq_nil_of_leads (s := s.closeTable) hlead]
    have hmode : s.closeTable.mode = .steps := by
      rw [Session.closeTable_eq]
      rcases Session.mode_of_inTable h with ⟨table, hs⟩ | ⟨table, hs⟩ <;> rw [hs] <;> rfl
    rw [hmode]
    refine answers_onSteps hmode (fun hopen => ?_) log
    rw [Session.closeTable_eq]
    exact hsettled hlead hopen

/-- Outside tables a line is answered by the readers of the mode as it stands. -/
theorem answers_handler (hskips : s.skips raw = false) (hcomment : s.isComment raw = false)
    (htable : s.inTable = false) (hsettled : s.consults raw = true → s.chosen.isSome = true)
    (log : List Record) :
    Answers s (log ++ s.rowNote raw) ((handler raw s.mode.stage).runOn (s.cursor log))
      (recognise s.mode.readers s raw) := by
  rw [Session.consults, hskips, hcomment] at hsettled
  have hquiet {mode : Mode} (hs : s.mode = mode) (hmode : mode ≠ .steps) :
      log ++ s.rowNote raw = log := by
    have hreads : s.readsRow raw = false := by
      simp only [Session.readsRow, hs, hmode, htable, decide_false, Bool.false_and,
        Bool.or_false, Bool.and_false]
    rw [Session.rowNote, hreads]
    exact List.append_nil log
  have htagless {P : Prop} (h : (true && !leads '@' (trim raw)) = true → P)
      (hlead : leads '@' (trim raw) = false) : P := h (by rw [hlead]; rfl)
  cases hs : s.mode with
  | start =>
    rw [hs] at hsettled
    rw [hquiet hs Mode.noConfusion]
    exact answers_onStart hs (htagless hsettled) log
  | feature =>
    rw [hs] at hsettled
    rw [hquiet hs Mode.noConfusion]
    exact answers_onContainer (.inl hs) (htagless hsettled) log
  | rule =>
    rw [hs] at hsettled
    rw [hquiet hs Mode.noConfusion]
    exact answers_onContainer (.inr hs) (htagless hsettled) log
  | tagged =>
    rw [hs] at hsettled
    rw [hquiet hs Mode.noConfusion]
    exact answers_onTaggable (by rw [hs]; rfl) (htagless hsettled) log
  | background =>
    rw [hs] at hsettled
    rw [hquiet hs Mode.noConfusion]
    exact answers_onStatement (.inl hs) (hsettled rfl) log
  | scenario =>
    rw [hs] at hsettled
    rw [hquiet hs Mode.noConfusion]
    exact answers_onStatement (.inr hs) (hsettled rfl) log
  | steps =>
    rw [hs] at hsettled
    exact answers_onSteps hs (fun hopen => hsettled (by rw [hopen]; rfl)) log
  | docstring block =>
    rw [hquiet hs Mode.noConfusion]
    exact answers_onDocstring hs log
  | examples table => simp [Session.inTable, hs] at htable
  | stepTable table => simp [Session.inTable, hs] at htable

/-- The handler of the stage answers as the readers of the mode do, once the language
    has been settled if the line is tested against keywords. -/
theorem answers_dispatch (hskips : s.skips raw = false) (hcomment : s.isComment raw = false)
    (hsettled : s.consults raw = true → s.chosen.isSome = true) (log : List Record) :
    Answers (s.leaveTable raw) (log ++ s.rowNote raw) ((dispatch raw).runOn (s.cursor log))
      (recognise (s.leaveTable raw).mode.readers (s.leaveTable raw) raw) := by
  change Answers _ _ ((handler raw s.mode.stage).runOn (s.cursor log)) _
  cases htable : s.inTable with
  | true =>
    rw [Session.stage_eq_table_iff.mpr htable]
    refine answers_onTable htable (fun hlead hopen => hsettled ?_) log
    rw [Session.consults, hskips, hcomment, hlead, hopen]
    rcases Session.mode_of_inTable htable with ⟨table, hs⟩ | ⟨table, hs⟩ <;> rw [hs] <;> rfl
  | false =>
    have hstays : s.leaveTable raw = s := by
      rw [Session.leaveTable, htable]
      rfl
    rw [hstays]
    exact answers_handler hskips hcomment htable hsettled log

/-! ## 2. Keywords -/

theorem Settles.onTaggable {line : Text} (h : leads '@' line = false) :
    Settles (onTaggable line) := by
  unfold Handling.onTaggable
  rw [h]
  exact (Settles.onHeader _ _ _).orElse _

theorem Settles.onSteps (h : Fence.open? (trimStart raw) = none) : Settles (onSteps raw) := by
  unfold Handling.onSteps
  rw [h]
  exact Settles.onStep _ _

/-- Closing a table needs no keywords. -/
theorem Settles.onTable (hlead : leads '|' (trim raw) = false)
    (hopen : Fence.open? (trimStart raw) = none) : Settles (onTable raw) := by
  intro c
  have hrun (c : Cursor) : (Handling.onTable raw).runOn c =
      (Handling.onSteps raw).runOn { c.closeTable with stage := .steps } := by
    unfold Handling.onTable
    dsimp only
    rw [hlead]
    rfl
  rw [hrun, hrun, c.closeTable_settle, Settles.onSteps hopen, Cursor.settle_withStage]

/-- A line that is tested against keywords is given to a handler that needs them before
    anything else. -/
theorem settles_handler (h : s.consults raw = true) : Settles (handler raw s.mode.stage) := by
  have htagless (h : (!leads '@' (trim raw)) = true) : leads '@' (trim raw) = false := by
    simpa using h
  unfold Session.consults at h
  rw [Bool.and_eq_true] at h
  obtain ⟨-, h⟩ := h
  cases hs : s.mode <;> rw [hs] at h
  case start =>
    unfold handler Mode.stage onStart
    rw [htagless h]
    exact Settles.onHeader _ _ _
  case feature => exact (Settles.onTaggable (htagless h)).orElse _
  case rule => exact (Settles.onTaggable (htagless h)).orElse _
  case tagged => exact Settles.onTaggable (htagless h)
  case background => exact Settles.onStep _ _
  case scenario => exact Settles.onStep _ _
  case steps => exact Settles.onSteps (Option.isNone_iff_eq_none.mp h)
  case docstring => exact Bool.noConfusion h
  all_goals
    simp only [Bool.and_eq_true, Bool.not_eq_true', Option.isNone_iff_eq_none] at h
    exact Settles.onTable h.1 h.2

/-! ## 3. One line -/

theorem stage_ne_docstring_iff : s.mode.stage ≠ .docstring ↔ s.inDocstring = false := by
  unfold Session.inDocstring
  cases s.mode <;> simp [Mode.stage]

/-- A line that no handler takes is refused. -/
theorem Answers.agrees {work : Handling Bool} {c : Cursor}
    {answer : Option (Except Failure Session)} (h : Answers s log (work.runOn c) answer) :
    Agrees log ((work >>= fun taken => if taken then pure () else reject (trim raw)).runOn c)
      (answer.getD (.error (s.unexpected raw))) := by
  rcases answer with _ | failure | t
  · rw [runOn_bind_ok h]
    exact agrees_reject s raw log
  · obtain ⟨hfails, hlog⟩ := h
    rw [runOn_bind_error (Prod.ext hfails rfl)]
    exact ⟨rfl, hlog⟩
  · rw [runOn_bind_ok h]
    exact rfl

theorem directive?_of_isComment (h : s.isComment raw = true) :
    s.directive? raw =
      if s.mode.stage ≠ .start ∨ s.tags ≠ [] ∨ s.entry ≠ .feature then none
      else directive? (trim raw) := by
  have hstart : s.mode = .start ↔ s.mode.stage = .start := by
    cases s.mode <;> simp [Mode.stage]
  unfold Session.directive?
  simp only [h, Bool.true_and, Bool.and_eq_true, decide_eq_true_eq, List.isEmpty_iff, hstart,
    ← not_and_or, ne_eq, ite_not, and_assoc]

/-- A comment is read alike, and a directive is noted. -/
theorem agrees_comment (h : s.isComment raw = true) (log : List Record) :
    Agrees (log ++ s.directiveNote raw) ((comment (trim raw)).runOn (s.cursor log))
      (s.comment raw) := by
  have hunchanged : (Except.ok (), s.cursor log) =
      ((Except.ok (), s.cursor (log ++ [])) : Except Failure Unit × Cursor) := by
    rw [List.append_nil]
  unfold comment Session.directiveNote Session.comment
  rw [directive?_of_isComment h, runOn_bind_ok (runOn_get _), Session.cursor_stage,
    Session.cursor_tags, Session.cursor_entry]
  by_cases hplace : s.mode.stage ≠ .start ∨ s.tags ≠ [] ∨ s.entry ≠ .feature
  · rw [if_pos hplace, if_pos hplace]
    exact hunchanged
  rw [if_neg hplace, if_neg hplace]
  cases directive? (trim raw) with
  | none => exact hunchanged
  | some code =>
    dsimp only
    rw [Session.cursor_fixed, Session.cursor_catalogue]
    by_cases hfixed : s.fixed = true
    · rw [if_pos hfixed, if_pos hfixed, if_pos hfixed]
      exact rfl
    rw [if_neg hfixed, if_neg hfixed, if_neg hfixed, Catalogue.find?]
    cases s.catalogue.lookup code with
    | none => exact ⟨congrArg _ (s.cursor_failure _ raw log), (List.append_nil log).symm⟩
    | some keywords => exact rfl

theorem directiveNote_eq_nil (h : s.isComment raw = false) : s.directiveNote raw = [] := by
  rw [Session.directiveNote, Session.directive?, h]
  rfl

theorem isComment_of_skips (h : s.skips raw = true) : s.isComment raw = false := by
  rw [Session.skips, Bool.and_eq_true, List.isEmpty_iff] at h
  rw [Session.isComment, h.2]
  exact Bool.and_false _

/-- A line that is skipped or is a comment leaves the language alone, and only a directive
    is noted. -/
theorem enter_of_idle (h : (s.skips raw || s.isComment raw) = true) :
    s.enter raw = { s with line := s.line + 1 } ∧ s.notes raw = s.directiveNote raw := by
  have hconsults : s.consults raw = false := by
    rw [Session.consults, ← Bool.not_or, h]
    rfl
  have hrow : leads '|' (trim raw) = false := by
    cases htrim : trim raw with
    | nil => rfl
    | cons c rest =>
      have hlead : c = '#' := by simp_all [Session.skips, Session.isComment, leads]
      rw [hlead]
      rfl
  constructor
  · rw [Session.enter, hconsults]
    rfl
  · rw [Session.notes, Session.languageNote, hconsults, rowNote_eq_nil_of_leads hrow,
      List.append_nil]
    rfl

/-- A line that is tested against keywords is handled as if the language had been settled
    when the line was counted. -/
theorem runOn_dispatch_enter (s : Session) (raw : Text) (log : List Record) :
    (dispatch raw).runOn ({ s with line := s.line + 1 }.cursor log) =
      (dispatch raw).runOn ((s.enter raw).cursor (log ++ s.languageNote raw)) := by
  let counted : Session := { s with line := s.line + 1 }
  cases hconsults : s.consults raw with
  | false =>
    rw [Session.enter, Session.languageNote, hconsults]
    exact congrArg (fun log => (dispatch raw).runOn (counted.cursor log)) (List.append_nil log).symm
  | true =>
    have hcounted : counted.consults raw = true := hconsults
    change (handler raw counted.mode.stage).runOn (counted.cursor log) = _
    rw [settles_handler hcounted, Session.cursor_settle, Session.enter, Session.languageNote,
      hconsults, Bool.true_and]
    rfl

/-- Reading a line on the cursor of a session is reading it in the session, and logs the
    notes of the line. -/
theorem agrees_feed (s : Session) (raw : Text) (log : List Record) :
    Agrees (log ++ s.notes raw) ((feed raw).runOn (s.cursor log)) (s.feed raw) := by
  let counted : Session := { s with line := s.line + 1 }
  have hskips : (s.mode.stage ≠ .docstring ∧ (trim raw).isEmpty) ↔ s.skips raw = true := by
    rw [stage_ne_docstring_iff, Session.skips, Bool.and_eq_true, Bool.not_eq_true']
  have hcomment : (s.mode.stage ≠ .docstring ∧ leads '#' (trim raw)) ↔
      s.isComment raw = true := by
    rw [stage_ne_docstring_iff, Session.isComment, Bool.and_eq_true, Bool.not_eq_true']
  unfold feed
  rw [Session.feed_eq, runOn_bind_ok (runOn_modify _ _)]
  change Agrees _ (runOn _ (counted.cursor log)) _
  rw [runOn_bind_ok (runOn_get _)]
  change Agrees _ (runOn (if s.mode.stage ≠ .docstring ∧ (trim raw).isEmpty then _
    else if s.mode.stage ≠ .docstring ∧ leads '#' (trim raw) then _ else _) _) _
  simp only [hskips, hcomment]
  cases hskip : s.skips raw with
  | true =>
    have hidle : (s.skips raw || s.isComment raw) = true := by rw [hskip, Bool.true_or]
    obtain ⟨henter, hnotes⟩ := enter_of_idle hidle
    rw [hnotes, directiveNote_eq_nil (isComment_of_skips hskip), List.append_nil, henter]
    exact rfl
  | false =>
    cases hremark : s.isComment raw with
    | true =>
      have hidle : (s.skips raw || s.isComment raw) = true := by rw [hremark, Bool.or_true]
      obtain ⟨henter, hnotes⟩ := enter_of_idle hidle
      rw [hnotes, henter]
      exact agrees_comment (s := counted) hremark log
    | false =>
      have hsettled (hconsults : s.consults raw = true) :
          (s.enter raw).chosen.isSome = true := by
        rw [Session.enter, if_pos hconsults]
        rfl
      have hanswers := answers_dispatch (s := s.enter raw) hskip hremark hsettled
        (log ++ s.languageNote raw)
      rw [← runOn_dispatch_enter] at hanswers
      rw [Session.notes, directiveNote_eq_nil hremark, List.append_nil, ← List.append_assoc]
      exact hanswers.agrees

/-! ## 4. Many lines -/

/-- Reading lines on the cursor of a session is reading them in the session.  What it logs
    is the log of the session without the notes that are made at the end of the text. -/
theorem agrees_feedAll (s : Session) (raws : List Text) (log : List Record) :
    ∃ notes, Agrees (log ++ notes) ((feedAll raws).runOn (s.cursor log)) (s.feedAll raws) ∧
      s.log raws = notes ++
        match s.feedAll raws with
        | .ok t => t.endNotes
        | .error _ => [] := by
  induction raws generalizing s log with
  | nil => exact ⟨[], by rw [List.append_nil]; exact rfl, rfl⟩
  | cons raw rest ih =>
    have hline := agrees_feed s raw log
    have hrun : (feedAll (raw :: rest)).runOn (s.cursor log) =
        (feed raw >>= fun _ => feedAll rest).runOn (s.cursor log) := rfl
    rw [hrun, Session.feedAll_cons, Session.log]
    cases hfeed : s.feed raw with
    | error failure =>
      rw [hfeed] at hline
      rw [runOn_bind_error (Prod.ext hline.1 rfl)]
      exact ⟨s.notes raw, ⟨rfl, hline.2⟩, rfl⟩
    | ok next =>
      rw [hfeed] at hline
      rw [runOn_bind_ok hline]
      obtain ⟨notes, hrest, hlog⟩ := ih next (log ++ s.notes raw)
      rw [List.append_assoc] at hrest
      refine ⟨s.notes raw ++ notes, hrest, ?_⟩
      rw [List.append_assoc]
      exact congrArg (s.notes raw ++ ·) hlog

end Handling

end Gherkin
