/-
  Gherkin/Proofs/Cursor/Parsing.lean
  ==================================
  **Parsers on cursors.**

  What a parser reads is what the handlers read, and what it logs is what they log
  (`handle_feature`, `handle_rule`, `handle_steps`).

  At the end of a text the two differ in one point.  An Examples block that has a
  header and no row has its missing table put into it when a session ends, while the
  handlers leave it alone.  It has no table anyway (`Session.HeadingsAwaited`).

  The handlers log the standard language where keywords are needed and nobody has
  chosen a language.  So the log of one line tells whether the line is tested against
  keywords, and that is what the session says (`consults_iff`).
-/
import Gherkin.Cursor.Parsing
import Gherkin.Proofs.Cursor.Simulation
import Gherkin.Proofs.Session.LogDiscipline

namespace Gherkin

open Text

/-! ## 1. Blocks without rows -/

namespace Session

variable {s t : Session} {raw : Text} {raws : List Text}

/-- An Examples block whose first row has not been read has no table. -/
def HeadingsAwaited (s : Session) : Prop :=
  s.mode = .examples none →
    s.statement.map (·.mapBlocks (mapLast fun block => { block with table := none })) =
      s.statement

theorem HeadingsAwaited.of_mode (h : s.mode ≠ .examples none) : s.HeadingsAwaited :=
  fun hmode => absurd hmode h

/-- A new block is the last one, and it has no table. -/
theorem mapBlocks_concat (statement : Statement) (header : Header) (tags : List Tag) :
    (statement.mapBlocks (· ++ [⟨header, tags, none⟩])).mapBlocks
        (mapLast fun block => { block with table := none }) =
      statement.mapBlocks (· ++ [⟨header, tags, none⟩]) := by
  cases statement with
  | background node => rfl
  | scenario node =>
    cases hblocks : node.blocks with
    | none => simp only [Statement.mapBlocks, hblocks, Option.map_none]
    | some blocks =>
      simp only [Statement.mapBlocks, hblocks, Option.map_some, mapLast_append_singleton]

theorem HeadingsAwaited.takes {kind : LineKind} (htakes : Takes s raw kind t) :
    t.HeadingsAwaited := by
  cases htakes with
  | tags hmode hlead hrow =>
    apply HeadingsAwaited.of_mode
    by_cases hstart : s.mode = .start <;> simp [hstart]
  | examples hmode hfits houtline =>
    intro _
    unfold mapStatement
    dsimp only
    rw [Option.map_map]
    exact congrArg (s.statement.map ·) (funext fun statement => mapBlocks_concat statement _ _)
  | groupDescription hmode htagless hplain =>
    apply HeadingsAwaited.of_mode
    rw [mapGroup_eq]
    rcases hmode with hmode | hmode <;> simp [hmode]
  | statementDescription hmode htagless hstepless hplain =>
    apply HeadingsAwaited.of_mode
    rcases hmode with hmode | hmode <;> simp [mapStatement, hmode]
  | _ =>
    apply HeadingsAwaited.of_mode
    simp [startStatement_eq]

theorem HeadingsAwaited.feed (h : s.HeadingsAwaited) (hfeed : s.feed raw = .ok t) :
    t.HeadingsAwaited := by
  rcases feed_cases hfeed with ⟨-, chosen, rfl, -⟩ | ⟨-, -, kind, -, htakes⟩
  · exact h
  · exact HeadingsAwaited.takes htakes

theorem HeadingsAwaited.feedAll (h : s.HeadingsAwaited) (hfeed : s.feedAll raws = .ok t) :
    t.HeadingsAwaited :=
  feedAll_induction (P := fun s _ => s.HeadingsAwaited) hfeed h
    fun hawaited hnext => hawaited.feed hnext

/-! ## 2. The end of the text -/

theorem endNotes_closeTable (s : Session) : s.closeTable.endNotes = s.endNotes := by
  rw [closeTable_eq]
  unfold endNotes
  cases s.mode <;> rfl

/-- Closing what is open in the table slot is closing the table of the session, except for
    the stage and the mark of the Examples block, which nothing looks at any more. -/
theorem cursor_closeTable_of_isSome (h : s.HeadingsAwaited) (log : List Record) :
    ∃ stage examplesOpen,
      (if s.mode.table?.isSome then (s.cursor log).closeTable else s.cursor log) =
        { s.closeTable.cursor log with stage := stage, examplesOpen := examplesOpen } := by
  by_cases hawaited : s.mode = .examples none
  · have hnone : s.mode.table? = none := by rw [hawaited, Mode.table?]
    refine ⟨.table, true, ?_⟩
    rw [hnone, closeTable_eq, hawaited, Mode.attach, h hawaited]
    unfold cursor
    rw [hawaited]
    rfl
  cases htable : s.inTable with
  | true =>
    have hsome : s.mode.table?.isSome = true := by
      rcases mode_of_inTable htable with ⟨_ | table, hs⟩ | ⟨table, hs⟩
      · exact absurd hs hawaited
      · rw [hs]
        rfl
      · rw [hs]
        rfl
    refine ⟨(s.cursor log).closeTable.stage, (s.cursor log).closeTable.examplesOpen, ?_⟩
    rw [if_pos hsome, ← cursor_closeTable htable]
  | false =>
    have hnone : s.mode.table? = none := by
      unfold inTable at htable
      cases hs : s.mode <;> simp_all [Mode.table?]
    refine ⟨s.mode.stage, s.mode.examplesOpen, ?_⟩
    rw [hnone, closeTable_of_left (inTable_eq_false_iff.mp htable)]
    rfl

end Session

namespace Handling

variable {α : Type} {s : Session}

/-- What is unfinished in the slots of a cursor. -/
def unfinished (c : Cursor) : List Record :=
  (match c.block with
    | some block => [.openDocstring c.source block.line]
    | none => []) ++
  (match c.tags with
    | tag :: _ => [.danglingTags c.source tag.line]
    | [] => [])

theorem unfinished_cursor (s : Session) (log : List Record) :
    unfinished (s.cursor log) = s.endNotes := by
  unfold unfinished Session.cursor Session.endNotes
  cases s.mode <;> rfl

theorem runOn_finishPending (c : Cursor) :
    finishPending.runOn c = (.ok (), { c with block := none, log := c.log ++ unfinished c }) := by
  obtain ⟨_, _, _, _, _, _, _, _, _, _ | ⟨tag, _⟩, _, _, _, _ | block, _, _, log⟩ := c
  case nil.none => simp only [unfinished, List.append_nil]; rfl
  case nil.some => rfl
  case cons.none => rfl
  case cons.some => simp only [unfinished, ← List.append_assoc]; rfl

/-- Finishing work takes something out of the session, logs what is unfinished and
    needs neither the stage nor the mark of the Examples block. -/
def Finishes (finish : Handling α) (take : Session → α) : Prop :=
  ∀ (s : Session) (log : List Record) (stage : Stage) (examplesOpen : Bool), ∃ c,
    finish.runOn { s.cursor log with stage := stage, examplesOpen := examplesOpen } =
      (.ok (take s), c) ∧
    c.log = log ++ s.endNotes

theorem finishes_feature : Finishes finishFeature (·.closeStatement.closeRule.feature) := by
  intro s log stage examplesOpen
  have hlog := congrArg (log ++ ·) (unfinished_cursor s log)
  unfold finishFeature
  rw [runOn_bind_ok (runOn_finishPending _)]
  obtain ⟨_, _, _, _, _, _, _, _, _, _, _ | feature, _ | rule, _ | statement⟩ := s <;>
    exact ⟨_, rfl, hlog⟩

theorem finishes_rule :
    Finishes finishRule (·.closeStatement.rule.getD (.start .absent [])) := by
  intro s log stage examplesOpen
  have hlog := congrArg (log ++ ·) (unfinished_cursor s log)
  unfold finishRule
  rw [runOn_bind_ok (runOn_finishPending _)]
  obtain ⟨_, _, _, _, _, _, _, _, _, _, _ | feature, _ | rule, _ | statement⟩ := s <;>
    exact ⟨_, rfl, hlog⟩

theorem finishes_steps : Finishes finishSteps (·.statement.elim [] (·.steps)) := by
  intro s log stage examplesOpen
  have hlog := congrArg (log ++ ·) (unfinished_cursor s log)
  unfold finishSteps
  rw [runOn_bind_ok (runOn_finishPending _)]
  exact ⟨_, rfl, hlog⟩

/-- Behind the last line, closing the table and finishing takes out what the session ends
    with. -/
theorem Finishes.closing {finish : Handling α} {take : Session → α} (h : Finishes finish take)
    {text : Text} {c : Cursor} {t : Session} {log : List Record} (hawaited : t.HeadingsAwaited)
    (hfeed : (feedAll (lines text)).runOn c = (.ok (), t.cursor log)) :
    ∃ d, (run text >>= fun _ => finish).runOn c = (.ok (take t.closeTable), d) ∧
      d.log = log ++ t.endNotes := by
  obtain ⟨stage, examplesOpen, hclose⟩ := Session.cursor_closeTable_of_isSome hawaited log
  have hrun : (run text).runOn c =
      (.ok (), { t.closeTable.cursor log with stage := stage, examplesOpen := examplesOpen }) := by
    unfold run
    rw [runOn_bind_ok hfeed, runOn_bind_ok (runOn_get _), ← hclose, Session.cursor_table]
    split <;> rfl
  rw [runOn_bind_ok hrun, ← t.endNotes_closeTable]
  exact h t.closeTable log stage examplesOpen

end Handling

/-! ## 3. Parsers -/

namespace Parser

open Handling

variable {α : Type}

/-- A parser opens the cursor of the session that it opens. -/
theorem cursor_eq_map_session (parser : Parser) (entry : Entry) (source : Option Text) :
    parser.cursor entry source = (parser.session entry source).map (·.cursor []) := by
  unfold cursor session
  cases parser.find source parser.catalogue.standard with
  | error failure => rfl
  | ok standard =>
    cases parser.language with
    | none => cases entry <;> rfl
    | some code =>
      dsimp only
      cases parser.find source code with
      | error failure => rfl
      | ok language => cases entry <;> rfl

/-- Handling a text gives what is taken out of the session that has read it, and logs what
    reading it logs. -/
theorem handle_eq {finish : Handling α} {take : Session → α} (h : Finishes finish take)
    (parser : Parser) (entry : Entry) (text : Text) (source : Option Text) :
    parser.handle entry text source finish =
      ((parser.read entry text source).map fun t => take t.closeTable,
        parser.log entry text source) := by
  unfold handle Parser.read Parser.log
  rw [cursor_eq_map_session]
  cases hsession : parser.session entry source with
  | error failure => rfl
  | ok s =>
    obtain ⟨notes, hagrees, hlog⟩ := agrees_feedAll s (lines text) []
    have hawaited : s.HeadingsAwaited := by
      obtain ⟨standard, -, -, rfl⟩ := Session.session_eq_ok_iff.mp hsession
      apply Session.HeadingsAwaited.of_mode
      cases entry <;> exact Mode.noConfusion
    change (((run text >>= fun _ => finish).runOn (s.cursor [])).1,
      ((run text >>= fun _ => finish).runOn (s.cursor [])).2.log) =
      ((s.feedAll (lines text)).map _, s.log (lines text))
    rw [hlog]
    cases hfeed : s.feedAll (lines text) with
    | error failure =>
      rw [hfeed] at hagrees
      have hrun : (run text >>= fun _ => finish).runOn (s.cursor []) =
          (.error failure, ((feedAll (lines text)).runOn (s.cursor [])).2) :=
        runOn_bind_error (runOn_bind_error (Prod.ext hagrees.1 rfl) _) _
      rw [hrun, List.append_nil]
      exact Prod.ext rfl hagrees.2
    | ok t =>
      rw [hfeed] at hagrees
      obtain ⟨d, hrun, hend⟩ := h.closing (hawaited.feedAll hfeed) hagrees
      rw [hrun]
      exact Prod.ext rfl hend

theorem handle_feature (parser : Parser) (text : Text) (source : Option Text) :
    parser.handle .feature text source finishFeature =
      (parser.feature text source, parser.log .feature text source) :=
  handle_eq finishes_feature parser .feature text source

theorem handle_rule (parser : Parser) (text : Text) (source : Option Text) :
    parser.handle .rule text source finishRule =
      (parser.rule text source, parser.log .rule text source) :=
  handle_eq finishes_rule parser .rule text source

theorem handle_steps (parser : Parser) (text : Text) (source : Option Text) :
    parser.handle .steps text source finishSteps =
      (parser.steps text source, parser.log .steps text source) :=
  handle_eq finishes_steps parser .steps text source

end Parser

namespace Session

open Handling

variable {s : Session} {raw : Text}

/-! ## 4. Where keywords are needed -/

theorem standardLanguage_mem_notes_iff (h : s.chosen = none) :
    .standardLanguage s.standard.code ∈ s.notes raw ↔ s.consults raw = true := by
  constructor
  · intro hmem
    cases noted_of_mem hmem with
    | standardLanguage hconsults hfree => exact hconsults
  · intro hconsults
    rw [notes, languageNote, hconsults, h]
    exact List.mem_append_left _ (List.mem_append_left _ (List.mem_singleton_self _))

/-- A line is tested against keywords exactly when handling it, with no language chosen,
    asks for them. -/
theorem consults_iff (s : Session) (raw : Text) :
    s.consults raw = true ↔
      .standardLanguage s.standard.code ∈
        ((Handling.feed raw).runOn ({ s with chosen := none }.cursor [])).2.log := by
  let free : Session := { s with chosen := none }
  have hlog : ((Handling.feed raw).runOn (free.cursor [])).2.log = free.notes raw :=
    (agrees_feed free raw []).log_eq
  rw [hlog]
  exact (standardLanguage_mem_notes_iff (s := free) rfl).symm

end Session

end Gherkin
