/-
  Gherkin/Proofs/Session/StepArguments.lean
  =========================================
  **Which arguments of steps end up in the tree.**

  A table or a docstring goes to the last step above it, wherever it stands: behind
  another argument of the step, and even behind an Examples block.  As a step has
  one table and one docstring, the last of each kind stays.

  `Session.allArrivals` lists what the lines of a reading bring.  The account of a
  session (`Session.ledger`) is that of its tree as it would be if the text ended
  there, and each line enters its arrivals and nothing else (`ledger_feed`).  So
  the tree holds the pieces that arrived and were not displaced, without exception
  (`Parser.feature_keeps_arguments`).
-/
import Gherkin.Proofs.Session.Drafting
import Gherkin.Proofs.Session.SourceOrder
import Gherkin.Proofs.Tree.Arguments

namespace Gherkin

open Text

/-! ## 1. The arrivals of a reading -/

def LineKind.arrivals (kind : LineKind) (line : Nat) (raw : Text) : List Arrival :=
  match kind with
  | .rule | .scenario _ _ | .background | .step => [.boundary]
  | .firstRow => [.heading line]
  | .nextRow _ => [.row line]
  | .examplesRow _ => [.examplesRow line]
  | .docstring block => if block.closes raw then [.docstring block.line] else []
  | _ => []

namespace Session

def arrivals (s : Session) (raw : Text) : List Arrival :=
  if s.skips raw || s.isComment raw then []
  else ((s.facing raw).kind? raw).elim [] (·.arrivals (s.line + 1) raw)

/-- What the given lines bring, up to the first failure. -/
def allArrivals (s : Session) : List Text → List Arrival
  | [] => []
  | raw :: rest =>
    s.arrivals raw ++
      match s.feed raw with
      | .ok next => next.allArrivals rest
      | .error _ => []

/-! ## 2. The account of a session -/

def closedPieces (s : Session) : List Piece :=
  s.feature.elim [] (·.pieces) ++ s.rule.elim [] (·.pieces)

/-- The account of the open statement; a table that is still open is in its place. -/
def openLedger (s : Session) : Ledger := (s.statement.map s.mode.attach).elim .empty (·.ledger)

def ledger (s : Session) : Ledger := s.openLedger.above s.closedPieces

variable {s t : Session} {raw : Text} {kind : LineKind} {piece : Piece}

theorem openLedger_eq {statement : Statement} (h : s.statement = some statement) :
    s.openLedger = (s.mode.attach statement).ledger := by
  simp [openLedger, h]

theorem ledger_closeTable (s : Session) : s.closeTable.ledger = s.ledger := by
  have hleft : s.mode.left.attach = id := by cases s.mode <;> rfl
  rw [closeTable_eq]
  simp [ledger, openLedger, closedPieces, hleft]

theorem ledger_facing (s : Session) (raw : Text) : (s.facing raw).ledger = s.ledger := by
  have henter : (s.enter raw).ledger = s.ledger := rfl
  exact facing_cases s raw henter ((ledger_closeTable _).trans henter)

/-- Closing a statement moves its pieces and loses none of them. -/
theorem mem_closedPieces_closeStatement (h : s.Sound) (hentry : s.entry = .feature)
    (hattach : s.mode.attach = id) :
    piece ∈ s.closeStatement.closedPieces ↔ piece ∈ s.ledger.pieces := by
  rw [closeStatement_eq]
  unfold ledger openLedger closedPieces
  rw [hattach]
  cases hstatement : s.statement with
  | none =>
    cases s.rule <;> cases s.feature <;>
      simp [Ledger.above, Ledger.pieces, Ledger.empty, Group.closeAll]
  | some statement =>
    have hopen : piece ∈ (statement.ledger.above (s.feature.elim [] (·.pieces) ++
        s.rule.elim [] (·.pieces))).pieces ↔
          (piece ∈ s.feature.elim [] (·.pieces) ∨ piece ∈ s.rule.elim [] (·.pieces)) ∨
            piece ∈ statement.pieces := by
      rw [← Statement.mem_ledger]
      simp [Ledger.above, Ledger.pieces, or_assoc]
    simp only [Option.map_some, id_eq, Option.elim_some]
    rw [hopen]
    rcases h.group_cases hentry hstatement with
      ⟨rule, hrule, hgroup⟩ | ⟨feature, hrule, hfeature, hgroup⟩
    · have hclose : piece ∈ (rule.close statement).pieces ↔ _ :=
        Group.mem_pieces_close fun hkind => (h.group_fresh hstatement hgroup hkind).1
      simp [hrule, Group.closeAll, hclose, or_assoc]
    · have hclose : piece ∈ (feature.top.close statement).pieces ↔ _ :=
        Group.mem_pieces_close fun hkind => (h.group_fresh hstatement hgroup hkind).1
      simp only [hrule, hfeature, Option.isSome_none, Bool.false_eq_true, if_false,
        Option.map_some, Option.map_none, Option.elim_some, Option.elim_none, Feature.pieces,
        Feature.groups, Group.closeAll, List.flatMap_cons, List.mem_append, List.not_mem_nil,
        or_false, hclose]
      grind

theorem mem_closedPieces_closeRule (hroot : s.feature = none → s.rule = none) :
    piece ∈ s.closeRule.closedPieces ↔ piece ∈ s.closedPieces := by
  rw [closeRule_eq]
  unfold closedPieces
  cases hfeature : s.feature with
  | none => simp [hroot hfeature]
  | some feature => cases s.rule <;> simp [Feature.pieces, Feature.groups]

theorem mem_closedPieces_closeAll (h : s.Sound) (hentry : s.entry = .feature)
    (hattach : s.mode.attach = id) :
    piece ∈ s.closeStatement.closeRule.closedPieces ↔ piece ∈ s.ledger.pieces := by
  rw [mem_closedPieces_closeRule (h.root_closeStatement hentry),
    mem_closedPieces_closeStatement h hentry hattach]

/-! ## 3. One line -/

/-- A line that changes nothing but the open statement. -/
theorem ledger_of_open {arrivals : List Arrival} (hfeature : t.feature = s.feature)
    (hrule : t.rule = s.rule)
    (hopen : t.openLedger.Alike (arrivals.foldl Ledger.record s.openLedger)) :
    t.ledger.Alike (arrivals.foldl Ledger.record s.ledger) := by
  have hclosed : t.closedPieces = s.closedPieces := by
    rw [closedPieces, closedPieces, hfeature, hrule]
  unfold ledger
  rw [hclosed, Ledger.foldl_record_above]
  exact hopen.above _

theorem ledger_revise {arrivals : List Arrival} {old new : Statement}
    (hold : s.statement = some old) (hnew : t.statement = some new)
    (hfeature : t.feature = s.feature) (hrule : t.rule = s.rule)
    (hrevised : (t.mode.attach new).ledger.Alike
      (arrivals.foldl Ledger.record (s.mode.attach old).ledger)) :
    t.ledger.Alike (arrivals.foldl Ledger.record s.ledger) := by
  apply ledger_of_open hfeature hrule
  rw [openLedger_eq hold, openLedger_eq hnew]
  exact hrevised

/-- A line that closes the open statement and starts something that has no
    arguments yet. -/
theorem ledger_of_closed (hclosed : ∀ piece, piece ∈ t.closedPieces ↔ piece ∈ s.ledger.pieces)
    (hopen : t.openLedger = .empty) :
    t.ledger.Alike ([Arrival.boundary].foldl Ledger.record s.ledger) := by
  have hkept : t.ledger = .above .empty t.closedPieces := by rw [ledger, hopen]
  rw [hkept]
  refine ⟨?_, rfl⟩
  intro piece
  rw [← List.append_nil t.closedPieces] at hclosed
  exact hclosed piece

theorem ledger_mapGroup {f : Group → Group} (hf : ∀ group, (f group).pieces = group.pieces) :
    (s.mapGroup f).ledger = s.ledger := by
  rw [mapGroup_eq]
  unfold ledger closedPieces openLedger
  cases s.rule <;> cases s.feature <;> simp [Feature.pieces, Feature.groups, hf]

theorem ledger_takes (hsound : s.Sound) (hentry : s.entry = .feature) (htakes : Takes s raw kind t) :
    t.ledger.Alike ((kind.arrivals s.line raw).foldl Ledger.record s.ledger) := by
  have hmode := hsound.mode
  cases htakes with
  | tags hs hlead hrow =>
    refine ledger_of_open rfl rfl ?_
    have hattach : s.mode.attach = id := by
      rcases hs with hs | hs
      · rw [hs]
        rfl
      · exact Mode.attach_of_isOpen hs
    have hnext : (if s.mode = .start then Mode.start else .tagged).attach = id := by split <;> rfl
    unfold openLedger
    rw [hattach, hnext]
    exact .refl _
  | @feature header hs hfits =>
    rw [ModeFits, hs] at hmode
    obtain ⟨-, hfeature, hrule, hstatement⟩ := hmode
    refine ⟨?_, ?_⟩
    · simp [ledger, openLedger, closedPieces, hfeature, hrule, hstatement, LineKind.arrivals,
        Ledger.above, Feature.pieces, Feature.groups, Group.start, Group.pieces, Group.statements]
    · simp [ledger, openLedger, hstatement, LineKind.arrivals, Ledger.above]
  | @rule header hs hfits hfeature =>
    have hclosed := fun piece =>
      @mem_closedPieces_closeAll s piece hsound hentry (Mode.attach_of_isOpen hs)
    have hrule : s.closeStatement.closeRule.rule = none := by rw [closeRule_eq]
    apply ledger_of_closed
    · intro piece
      rw [← hclosed piece]
      simp [closedPieces, hrule, Group.start, Group.pieces, Group.statements]
    · rw [closeRule_eq, closeStatement_eq]
      rfl
  | @scenario header category blocks hs hknown hfits hgroup =>
    apply ledger_of_closed
    · intro piece
      exact mem_closedPieces_closeStatement hsound hentry (Mode.attach_of_isOpen hs)
    · rcases hknown with ⟨-, rfl⟩ | ⟨-, rfl⟩ <;> rfl
  | @examples header blocks hs hfits houtline =>
    obtain ⟨statement, hstatement, hblocks⟩ := Option.bind_eq_some_iff.mp houtline
    refine ledger_revise hstatement (statement_mapStatement hstatement) rfl rfl ?_
    rw [attach_addBlock statement _ rfl, Statement.ledger_addBlock hblocks rfl,
      Mode.attach_of_isOpen hs]
    exact .refl _
  | @background header hs hfits htags hfresh =>
    apply ledger_of_closed
    · intro piece
      apply mem_closedPieces_closeStatement hsound hentry
      rcases hs with hs | hs <;> rw [hs] <;> rfl
    · rfl
  | groupDescription hs htagless hplain =>
    have hsame : (s.mapGroup (·.describe (trim raw))).ledger = s.ledger :=
      ledger_mapGroup fun _ => rfl
    rw [hsame]
    exact .refl _
  | statementDescription hs htagless hstepless hplain =>
    have hsteps : s.mode.hasStepLines = true := by rcases hs with hs | hs <;> rw [hs] <;> rfl
    obtain ⟨-, statement, hstatement⟩ := hmode.stepLines hsteps
    refine ledger_revise hstatement (statement_mapStatement hstatement) rfl rfl ?_
    rw [mapStatement, Mode.attach_of_isOpen (Mode.isOpen_of_hasStepLines s.mode hsteps), id_eq,
      Statement.ledger_describe]
    exact .refl _
  | @step found type hs hfits hresolved =>
    obtain ⟨-, statement, hstatement⟩ := hmode.stepLines hs
    refine ledger_revise hstatement (statement_mapStatement hstatement) rfl rfl ?_
    rw [Mode.attach_of_isOpen (Mode.isOpen_of_hasStepLines s.mode hs)]
    change (statement.addStep _).ledger.Alike (statement.ledger.record .boundary)
    rw [Statement.ledger_addStep statement rfl rfl]
    exact ⟨fun piece => Statement.mem_ledger.symm, rfl⟩
  | fence hs hfits hsteps =>
    refine ledger_of_open rfl rfl ?_
    unfold openLedger
    rw [hs]
    exact .refl _
  | @closingFence block hs hcloses =>
    rw [ModeFits, hs] at hmode
    obtain ⟨statement, hstatement, hsteps⟩ := hasSteps_eq_true_iff.mp hmode.2
    have harrivals : (LineKind.docstring block).arrivals s.line raw = [.docstring block.line] :=
      if_pos hcloses
    rw [harrivals]
    refine ledger_revise hstatement (statement_mapStatement hstatement) rfl rfl ?_
    rw [hs]
    change (statement.mapLastStep _).ledger.Alike (statement.ledger.record (.docstring block.line))
    rw [Statement.ledger_withDocstring hsteps]
    exact .refl _
  | @docstring block next hs hinside hpush =>
    have harrivals : (LineKind.docstring block).arrivals s.line raw = [] :=
      if_neg (by simp [hinside])
    rw [harrivals]
    refine ledger_of_open rfl rfl ?_
    unfold openLedger
    rw [hs]
    exact .refl _
  | firstRow hs hlead hsteps =>
    obtain ⟨statement, hstatement, hsteps⟩ := hasSteps_eq_true_iff.mp hsteps
    refine ledger_revise hstatement hstatement rfl rfl ?_
    rw [hs]
    change (statement.mapLastStep _).ledger.Alike (statement.ledger.record (.heading s.line))
    rw [Statement.ledger_withTable hsteps]
    exact .refl _
  | examplesHeadings hs =>
    rw [ModeFits, hs] at hmode
    obtain ⟨-, blocks, hblocks, hne⟩ := hmode
    obtain ⟨statement, hstatement, hblocks⟩ := Option.bind_eq_some_iff.mp hblocks
    refine ledger_revise hstatement hstatement rfl rfl ?_
    rw [hs, Statement.ledger_attach none _ hblocks hne rfl]
    exact .refl _
  | examplesRow hs hpush =>
    rw [ModeFits, hs] at hmode
    obtain ⟨-, blocks, hblocks, hne⟩ := hmode
    obtain ⟨statement, hstatement, hblocks⟩ := Option.bind_eq_some_iff.mp hblocks
    refine ledger_revise hstatement hstatement rfl rfl ?_
    rw [hs, Statement.ledger_attach (some _) (some _) hblocks hne (Table.pieces_push? hpush)]
    exact .refl _
  | nextRow hs hpush =>
    rw [ModeFits, hs] at hmode
    obtain ⟨statement, hstatement, hsteps⟩ := hasSteps_eq_true_iff.mp hmode.2
    refine ledger_revise hstatement hstatement rfl rfl ?_
    rw [hs]
    change (statement.mapLastStep _).ledger.Alike
      (Ledger.record (statement.mapLastStep _).ledger (.row s.line))
    rw [Statement.ledger_withTable hsteps, Statement.ledger_withTable hsteps, Ledger.record,
      Ledger.slots_fill, Ledger.fill_fill, Table.pieces_push? hpush]
    exact .refl _

theorem ledger_feed (hsound : s.Sound) (hentry : s.entry = .feature) (hfeed : s.feed raw = .ok t) :
    t.ledger.Alike ((s.arrivals raw).foldl Ledger.record s.ledger) := by
  unfold arrivals
  rcases feed_cases hfeed with ⟨hidle, chosen, rfl, -⟩ | ⟨hskips, hcomment, kind, hkind, htakes⟩
  · rw [if_pos hidle]
    exact .refl _
  · have hfacing := (facing_setup s raw).entry.trans hentry
    have hledger := ledger_takes (hsound.facing raw) hfacing htakes
    rw [ledger_facing, facing_line] at hledger
    simpa [hskips, hcomment, hkind] using hledger

/-! ## 4. Every reading -/

theorem ledger_feedAll {raws : List Text} (hsound : s.Sound) (hentry : s.entry = .feature)
    (hfeed : s.feedAll raws = .ok t) :
    t.ledger.Alike ((s.allArrivals raws).foldl Ledger.record s.ledger) := by
  induction raws generalizing s with
  | nil =>
    obtain rfl : s = t := by simpa using hfeed
    exact .refl _
  | cons raw rest ih =>
    obtain ⟨next, hnext, hrest⟩ := ok_of_feedAll_cons hfeed
    have hledger := ih (hsound.feed hnext) ((feed_setup hnext).1.entry.trans hentry) hrest
    rw [allArrivals, hnext, List.foldl_append]
    exact hledger.trans ((ledger_feed hsound hentry hnext).foldl_record _)

theorem mem_pieces_finishFeature (hsound : s.Sound) (hentry : s.entry = .feature) :
    piece ∈ s.finishFeature.elim [] (·.pieces) ↔ piece ∈ s.ledger.pieces := by
  have hattach : s.closeTable.mode.attach = id := by
    rw [closeTable_eq]
    cases s.mode <;> rfl
  have hrule : s.closeTable.closeStatement.closeRule.rule = none := by rw [closeRule_eq]
  rw [← ledger_closeTable, ← mem_closedPieces_closeAll hsound.closeTable
    ((closeTable_setup s).entry.trans hentry) hattach]
  simp [closedPieces, finishFeature, hrule]

end Session

namespace Parser

variable {parser : Parser} {text : Text} {source : Option Text}

def arrivals (parser : Parser) (text : Text) (source : Option Text) : List Arrival :=
  match parser.session .feature source with
  | .ok s => s.allArrivals (lines text)
  | .error _ => []

theorem mem_pieces_feature {result : Option Feature}
    (h : parser.feature text source = .ok result) (piece : Piece) :
    piece ∈ result.elim [] (·.pieces) ↔ Remains piece (parser.arrivals text source) := by
  obtain ⟨s, t, hsession, hfeed, rfl⟩ := feature_eq_ok h
  have hsound := Session.Sound.of_session hsession
  obtain ⟨assumed, -, -, hs⟩ := Session.session_eq_ok_iff.mp hsession
  have hentry : s.entry = .feature := by rw [hs]; rfl
  have hempty : s.ledger = .empty := by rw [hs]; rfl
  have harrivals : parser.arrivals text source = s.allArrivals (lines text) := by
    rw [arrivals, hsession]
  rw [harrivals, Session.mem_pieces_finishFeature (hsound.feedAll hfeed)
      ((Session.feedAll_setup hfeed).entry.trans hentry),
    (Session.ledger_feedAll hsound hentry hfeed).mem_pieces, Ledger.mem_foldl_record, hempty]
  simp [Ledger.empty]

/-- The rows of the tables in a tree are the rows of its text, but for those of a
    table of a step that another table below the same step displaces; and likewise
    for docstrings. -/
theorem feature_keeps_arguments {result : Option Feature}
    (h : parser.feature text source = .ok result) :
    (∀ line, (∃ feature ∈ result, ∃ table ∈ feature.tables,
        table.line = line ∨ ∃ row ∈ table.rows, row.line = line) ↔
      Remains (.row line) (parser.arrivals text source)) ∧
    (∀ line, (∃ feature ∈ result, ∃ docstring ∈ feature.docstrings, docstring.line = line) ↔
      Remains (.docstring line) (parser.arrivals text source)) := by
  have hmem : ∀ piece : Piece, piece ∈ result.elim [] (·.pieces) ↔
      ∃ feature ∈ result, piece ∈ feature.pieces := by
    cases result <;> simp
  constructor
  · intro line
    rw [← mem_pieces_feature h, hmem]
    simp [Feature.mem_pieces, Table.row_mem_pieces]
  · intro line
    rw [← mem_pieces_feature h, hmem]
    simp [Feature.mem_pieces, Table.docstring_not_mem_pieces, eq_comm]

/-- For instance a docstring behind an Examples block, which goes to the step above
    the block, and a row of the block. -/
theorem feature_keeps_arguments_examples :
    ∃ text feature, standard.feature text none = .ok (some feature) ∧
      standard.arrivals text none =
        [.boundary, .boundary, .heading 4, .examplesRow 6, .examplesRow 7, .docstring 8,
          .boundary, .heading 12] ∧
      (∃ table ∈ feature.tables, table.line = 7 ∨ ∃ row ∈ table.rows, row.line = 7) ∧
      ∃ docstring ∈ feature.docstrings, docstring.line = 8 := by
  obtain ⟨text, htext⟩ : ∃ text, text =
      ("Feature: F\nScenario Outline: S\nGiven a\n| x |\nExamples:\n| y |\n| z |\n" ++
        "\"\"\"\nb\n\"\"\"\nGiven c\n| w |").toList := ⟨_, rfl⟩
  obtain ⟨feature, hfeature, harrivals⟩ : ∃ feature,
      standard.feature text none = .ok (some feature) ∧
        standard.arrivals text none =
          [.boundary, .boundary, .heading 4, .examplesRow 6, .examplesRow 7, .docstring 8,
            .boundary, .heading 12] := by
    rw [htext]
    exact ⟨_, rfl, rfl⟩
  obtain ⟨hrows, hdocstrings⟩ := feature_keeps_arguments hfeature
  have hrow : Remains (.row 7) (standard.arrivals text none) := by
    rw [harrivals]
    simp [remains_cons, not_remains_nil, Arrival.piece?, Arrival.Displaced, Arrival.slot?]
  have hdocstring : Remains (.docstring 8) (standard.arrivals text none) := by
    rw [harrivals]
    simp [remains_cons, not_remains_nil, Arrival.piece?, Arrival.Displaced, Arrival.slot?,
      Arrival.clears, cleared_cons]
  have hrow' := (hrows 7).mpr hrow
  have hdocstring' := (hdocstrings 8).mpr hdocstring
  exact ⟨text, feature, hfeature, harrivals, by simpa using hrow', by simpa using hdocstring'⟩

/-- A second table below a step displaces the first one, and a second docstring does
    so too; nothing is logged about it. -/
theorem feature_displaces_arguments :
    ∃ text feature, standard.feature text none = .ok (some feature) ∧
      (∀ record ∈ standard.log .feature text none, record.severity ≠ .warn) ∧
      .heading 4 ∈ standard.arrivals text none ∧
      (∀ table ∈ feature.tables, table.line ≠ 4 ∧ ∀ row ∈ table.rows, row.line ≠ 4) ∧
      .docstring 5 ∈ standard.arrivals text none ∧
      ∀ docstring ∈ feature.docstrings, docstring.line ≠ 5 := by
  refine ⟨("Feature: F\nScenario: S\nGiven a\n| x |\n\"\"\"\nb\n\"\"\"\n| y |\n" ++
    "'''\nc\n'''").toList, _, rfl, ?_, ?_, ?_, ?_, ?_⟩ <;> decide

end Parser

end Gherkin
