/-
  Gherkin/Proofs/Session/Renumbering.lean
  =======================================
  **Reading the same lines under other numbers.**

  A reading writes the numbers of lines into its tree and into its failures, and
  it never looks at them.  So every reader commutes with a renumbering of the
  session (`LineKind.reader_renumber`), a line does (`feed_renumber`), and a whole
  reading does (`feedAll_renumber`).

  The number of the last line that was read is kept apart from the numbers in the
  nodes: a renumbering has to fit the lines that are still to come, and it may do
  anything to those before.
-/
import Gherkin.Proofs.Session.Refusal
import Gherkin.Proofs.Tree.Renumbering

namespace Gherkin

open Text

/-! ## 1. Renumbered sessions -/

section Sessions

variable (r : Nat → Nat)

def Block.renumber (block : Block) : Block := { block with line := r block.line }

def Mode.renumber : Mode → Mode
  | .docstring block => .docstring (block.renumber r)
  | .examples table => .examples (table.map (·.renumber r))
  | .stepTable table => .stepTable (table.renumber r)
  | mode => mode

def LineKind.renumber : LineKind → LineKind
  | .scenario category blocks => .scenario category (blocks.map (·.map (·.renumber r)))
  | .docstring block => .docstring (block.renumber r)
  | .examplesRow table => .examplesRow (table.map (·.renumber r))
  | .nextRow table => .nextRow (table.renumber r)
  | kind => kind

def Failure.renumber (failure : Failure) : Failure :=
  { failure with position := { failure.position with line := r failure.position.line } }

def Session.renumber (s : Session) : Session :=
  { s with
    line := r s.line
    mode := s.mode.renumber r
    tags := s.tags.map (·.renumber r)
    feature := s.feature.map (·.renumber r)
    rule := s.rule.map (·.renumber r)
    statement := s.statement.map (·.renumber r) }

def renumberAnswer (answer : Except Failure Session) : Except Failure Session :=
  (answer.map (·.renumber r)).mapError (·.renumber r)

end Sessions

variable {r : Nat → Nat}

/-! ## 2. What does not depend on the numbers -/

namespace Statement

@[simp] theorem steps_renumber (statement : Statement) :
    (statement.renumber r).steps = statement.steps.map (·.renumber r) := by
  cases statement <;> rfl

@[simp] theorem isScenario_renumber (statement : Statement) :
    (statement.renumber r).isScenario = statement.isScenario := by
  cases statement <;> rfl

end Statement

theorem Tag.ofWord_renumber (word : Text) (line : Nat) :
    Tag.ofWord word (r line) = (Tag.ofWord word line).renumber r := by
  unfold Tag.ofWord
  split <;> rfl

theorem Tag.ofWords_renumber (row : List Text) (line : Nat) :
    Tag.ofWords (r line) row = (Tag.ofWords line row).map (·.map (·.renumber r)) := by
  induction row with
  | nil => rfl
  | cons word rest ih =>
    unfold Tag.ofWords
    split
    · rw [ih, Tag.ofWord_renumber]
      cases Tag.ofWords line rest <;> rfl
    · rfl
    · rfl

theorem Tag.ofLine_renumber (row : Text) (line : Nat) :
    Tag.ofLine (r line) row = (Tag.ofLine line row).map (·.map (·.renumber r)) :=
  Tag.ofWords_renumber (words row) line

theorem Table.push?_renumber (table : Table) (cells : List Text) (line : Nat) :
    (table.renumber r).push? ⟨cells, r line⟩ =
      (table.push? ⟨cells, line⟩).map (·.renumber r) := by
  unfold Table.push?
  have hheadings : (table.renumber r).headings = table.headings := rfl
  rw [hheadings]
  split
  · simp [Table.renumber, Row.renumber]
  · rfl

namespace Session

variable (s : Session) (raw : Text)

@[simp] theorem keywords_renumber : (s.renumber r).keywords = s.keywords := rfl

@[simp] theorem inDocstring_renumber : (s.renumber r).inDocstring = s.inDocstring := by
  unfold inDocstring Session.renumber
  cases s.mode <;> rfl

@[simp] theorem inTable_renumber : (s.renumber r).inTable = s.inTable := by
  unfold inTable Session.renumber
  cases s.mode <;> rfl

@[simp] theorem hasSteps_renumber : (s.renumber r).hasSteps = s.hasSteps := by
  unfold hasSteps Session.renumber
  cases s.statement <;> simp

@[simp] theorem group?_renumber : (s.renumber r).group? = s.group?.map (·.renumber r) := by
  unfold group? Session.renumber
  cases s.rule with
  | none => cases s.feature <;> rfl
  | some rule => rfl

theorem header?_renumber (category : Category) :
    (s.renumber r).header? category raw = (s.header? category raw).map (·.renumber r) := by
  unfold header?
  rw [keywords_renumber]
  cases s.keywords.header? category (trim raw) <;> rfl

theorem failure_renumber (cause : Cause) :
    (s.renumber r).failure cause raw = (s.failure cause raw).renumber r := rfl

theorem diagnose_renumber : (s.renumber r).diagnose raw = s.diagnose raw := by
  have hscenarios : (s.renumber r).groupHasScenarios = s.groupHasScenarios := by
    unfold groupHasScenarios
    rw [group?_renumber]
    cases hstatement : s.statement <;> cases s.group? <;>
      simp [Session.renumber, hstatement, Group.renumber]
  have hbackground : (s.renumber r).backgroundReason = s.backgroundReason := by
    unfold backgroundReason
    rw [hscenarios]
    simp [Session.renumber]
  have hscenario : ∀ category, (s.renumber r).scenarioReason category =
      s.scenarioReason category := by
    intro category
    unfold scenarioReason
    rw [group?_renumber, Option.isSome_map]
  have hfeature : (s.renumber r).feature.isSome = s.feature.isSome := Option.isSome_map
  have hnone : (s.renumber r).feature.isNone = s.feature.isNone := Option.isNone_map
  unfold diagnose
  rw [hbackground, hscenario, hscenario, hfeature, hnone]
  rfl

theorem unexpected_renumber : (s.renumber r).unexpected raw = (s.unexpected raw).renumber r := by
  have hstage : (s.renumber r).mode.stage = s.mode.stage := by
    unfold Session.renumber
    cases s.mode <;> rfl
  unfold unexpected
  rw [diagnose_renumber, hstage, failure_renumber]

/-! ## 3. Moves -/

theorem mapStatement_renumber {f g : Statement → Statement}
    (h : ∀ statement, (f statement).renumber r = g (statement.renumber r)) :
    (s.mapStatement f).renumber r = (s.renumber r).mapStatement g := by
  unfold mapStatement Session.renumber
  simp [Function.comp_def, h]

theorem mapGroup_renumber {f g : Group → Group}
    (h : ∀ group, (f group).renumber r = g (group.renumber r)) :
    (s.mapGroup f).renumber r = (s.renumber r).mapGroup g := by
  unfold mapGroup Session.renumber
  cases s.rule with
  | none => cases s.feature <;> simp [Feature.renumber, h]
  | some rule => simp [h]

theorem closeStatement_renumber :
    s.closeStatement.renumber r = (s.renumber r).closeStatement := by
  obtain ⟨_, _, _, _, _, _, _, _, _, _, feature, rule, statement⟩ := s
  cases statement with
  | none => rfl
  | some statement =>
    cases rule <;> cases feature <;>
      simp [Session.closeStatement, Session.mapGroup, Session.renumber, Group.renumber_close,
        Feature.renumber]

theorem closeRule_renumber : s.closeRule.renumber r = (s.renumber r).closeRule := by
  obtain ⟨_, _, _, _, _, _, _, _, _, _, feature, rule, _⟩ := s
  cases rule <;> cases feature <;>
    simp [Session.closeRule, Session.renumber, Feature.renumber]

theorem attach_renumber (mode : Mode) (statement : Statement) :
    (mode.attach statement).renumber r = (mode.renumber r).attach (statement.renumber r) := by
  cases mode with
  | examples table =>
    apply Statement.renumber_mapBlocks
    exact map_mapLast_comm fun _ => rfl
  | stepTable table =>
    apply Statement.renumber_mapLastStep
    intro step
    exact Step.renumber_withTable step table
  | _ => rfl

theorem closeTable_renumber : s.closeTable.renumber r = (s.renumber r).closeTable := by
  have hleft : s.mode.left.renumber r = (s.mode.renumber r).left := by cases s.mode <;> rfl
  rw [closeTable_eq, closeTable_eq]
  simp [Session.renumber, hleft, Function.comp_def, attach_renumber]

end Session

/-! ## 4. Readers -/

@[simp] theorem renumberAnswer_ok (t : Session) : renumberAnswer r (.ok t) = .ok (t.renumber r) :=
  rfl

theorem Mode.renumber_eq_start_iff (mode : Mode) : mode.renumber r = .start ↔ mode = .start := by
  cases mode <;> simp [Mode.renumber]

namespace Reader

variable (s : Session) (raw : Text)

theorem tagLine_renumber :
    tagLine (s.renumber r) raw = (tagLine s raw).map (renumberAnswer r) := by
  have hrow := Tag.ofLine_renumber (r := r) (trim raw) s.line
  have hline : (s.renumber r).line = r s.line := rfl
  unfold tagLine
  split
  · rw [hline, hrow]
    cases Tag.ofLine s.line (trim raw) with
    | error word => rfl
    | ok tags =>
      by_cases hstart : s.mode = .start
      · simp [Except.map, Session.renumber, hstart, Mode.renumber]
      · have hother := mt (Mode.renumber_eq_start_iff (r := r) s.mode).mp hstart
        simp [Except.map, Session.renumber, hstart, hother]
        rfl
  · rfl

theorem featureHeader_renumber :
    featureHeader (s.renumber r) raw = (featureHeader s raw).map (renumberAnswer r) := by
  unfold featureHeader
  rw [s.header?_renumber]
  cases s.header? .feature raw <;> rfl

theorem ruleHeader_renumber :
    ruleHeader (s.renumber r) raw = (ruleHeader s raw).map (renumberAnswer r) := by
  have hfeature : (s.renumber r).feature.isNone = s.feature.isNone := Option.isNone_map
  unfold ruleHeader
  rw [s.header?_renumber, hfeature, s.unexpected_renumber, ← Session.closeStatement_renumber,
    ← Session.closeRule_renumber]
  cases s.header? .rule raw with
  | none => rfl
  | some header =>
    simp only [Option.map_some]
    split <;> rfl

theorem scenarioHeader_renumber (category : Category) (blocks : Option (List Examples)) :
    scenarioHeader category (blocks.map (·.map (·.renumber r))) (s.renumber r) raw =
      (scenarioHeader category blocks s raw).map (renumberAnswer r) := by
  unfold scenarioHeader
  rw [s.header?_renumber, s.group?_renumber, Option.isNone_map, s.unexpected_renumber]
  cases s.header? category raw with
  | none => rfl
  | some header =>
    simp only [Option.map_some, Session.startStatement_eq, ← Session.closeStatement_renumber]
    split <;> rfl

theorem examplesHeader_renumber :
    examplesHeader (s.renumber r) raw = (examplesHeader s raw).map (renumberAnswer r) := by
  have hblocks : ((s.renumber r).statement.bind (·.blocks?)).isNone =
      (s.statement.bind (·.blocks?)).isNone := by
    cases hstatement : s.statement <;>
      simp [Session.renumber, hstatement, Statement.blocks?_renumber]
  unfold examplesHeader
  rw [s.header?_renumber, hblocks]
  cases s.header? .examples raw with
  | none => rfl
  | some header =>
    have hadd : (s.renumber r).mapStatement
        (·.mapBlocks (· ++ [⟨header.renumber r, (s.renumber r).tags, none⟩])) =
        (s.mapStatement (·.mapBlocks (· ++ [⟨header, s.tags, none⟩]))).renumber r := by
      symm
      apply s.mapStatement_renumber
      apply Statement.renumber_mapBlocks
      intro blocks
      simp [Examples.renumber, Session.renumber]
    simp only [Option.map_some, hadd]
    split <;> rfl

theorem backgroundHeader_renumber :
    backgroundHeader (s.renumber r) raw = (backgroundHeader s raw).map (renumberAnswer r) := by
  have htags : (s.renumber r).tags.isEmpty = s.tags.isEmpty := List.isEmpty_map
  have hnames : (s.renumber r).tags.map (·.name) = s.tags.map (·.name) := by
    simp [Session.renumber, Function.comp_def, Tag.renumber]
  have hsteps : ((s.renumber r).group?.bind (·.background)).any (!·.steps.isEmpty) =
      (s.group?.bind (·.background)).any (!·.steps.isEmpty) := by
    rw [s.group?_renumber]
    cases s.group? with
    | none => rfl
    | some group =>
      cases hbackground : group.background <;>
        simp [Group.renumber, Background.renumber, hbackground]
  unfold backgroundHeader
  rw [s.header?_renumber, htags, hnames, hsteps]
  cases s.header? .background raw with
  | none => rfl
  | some header =>
    simp only [Option.map_some, Session.startStatement_eq, ← Session.closeStatement_renumber]
    split
    · rfl
    · split <;> rfl

theorem repeatedBackground_renumber :
    repeatedBackground (s.renumber r) raw = (repeatedBackground s raw).map (renumberAnswer r) := by
  have hbackground : (s.renumber r).statement.any (·.isBackground) =
      s.statement.any (·.isBackground) := by
    cases hstatement : s.statement <;>
      simp [Session.renumber, hstatement, Statement.isBackground]
  unfold repeatedBackground
  rw [hbackground, s.hasSteps_renumber, s.header?_renumber, Option.isSome_map]
  split <;> rfl

theorem groupDescription_renumber :
    groupDescription (s.renumber r) raw = (groupDescription s raw).map (renumberAnswer r) := by
  have hdescribe : (s.renumber r).mapGroup (·.describe (trim raw)) =
      (s.mapGroup (·.describe (trim raw))).renumber r := by
    symm
    apply s.mapGroup_renumber
    intro group
    exact group.renumber_describe (trim raw)
  unfold groupDescription
  rw [s.group?_renumber, hdescribe]
  cases s.group? <;> rfl

theorem statementDescription_renumber :
    statementDescription (s.renumber r) raw =
      (statementDescription s raw).map (renumberAnswer r) := by
  have hdescribe : (s.renumber r).mapStatement (·.describe (trim raw)) =
      (s.mapStatement (·.describe (trim raw))).renumber r := by
    symm
    apply s.mapStatement_renumber
    intro statement
    exact statement.renumber_describe (trim raw)
  have hstatement : (s.renumber r).statement = s.statement.map (·.renumber r) := rfl
  unfold statementDescription
  rw [hdescribe, hstatement]
  cases s.statement <;> rfl

theorem stepLine_renumber :
    stepLine (s.renumber r) raw = (stepLine s raw).map (renumberAnswer r) := by
  have hlast : (s.renumber r).lastType = s.lastType := rfl
  unfold stepLine
  rw [s.keywords_renumber, hlast]
  cases s.keywords.step? (trim raw) with
  | none => rfl
  | some found =>
    simp only [Option.map_some]
    cases found.resolve s.lastType with
    | none => rfl
    | some type =>
      have hadd : (s.renumber r).mapStatement
          (·.addStep ⟨found.keyword, type, found.text, none, none, (s.renumber r).line⟩) =
          (s.mapStatement
            (·.addStep ⟨found.keyword, type, found.text, none, none, s.line⟩)).renumber r := by
        symm
        apply s.mapStatement_renumber
        intro statement
        exact statement.renumber_addStep _
      simp only [hadd]
      rfl

theorem fenceLine_renumber :
    fenceLine (s.renumber r) raw = (fenceLine s raw).map (renumberAnswer r) := by
  unfold fenceLine
  rw [s.hasSteps_renumber]
  cases Fence.open? (trimStart raw) with
  | none => rfl
  | some found =>
    simp only [Option.map_some]
    split <;> rfl

theorem docstringLine_renumber (block : Block) :
    docstringLine (block.renumber r) (s.renumber r) raw =
      (docstringLine block s raw).map (renumberAnswer r) := by
  have hcloses : (block.renumber r).closes raw = block.closes raw := rfl
  have hpush : (block.renumber r).push raw = (block.push raw).map (·.renumber r) := by
    have hmargin : (block.renumber r).margin = block.margin := rfl
    unfold Block.push
    rw [hmargin]
    simp only
    split <;> rfl
  have hattach : (s.renumber r).mapStatement
      (·.mapLastStep (·.withDocstring (block.renumber r).docstring)) =
      (s.mapStatement (·.mapLastStep (·.withDocstring block.docstring))).renumber r := by
    symm
    apply s.mapStatement_renumber
    apply Statement.renumber_mapLastStep
    intro step
    exact step.renumber_withDocstring block.docstring
  unfold docstringLine
  rw [hcloses, hpush, hattach]
  split
  · rfl
  · cases block.push raw <;> rfl

theorem firstRow_renumber :
    firstRow (s.renumber r) raw = (firstRow s raw).map (renumberAnswer r) := by
  unfold firstRow
  rw [s.hasSteps_renumber]
  split
  · split <;> rfl
  · rfl

theorem nextRow_renumber (table : Table) {resume : Table → Mode}
    (hresume : ∀ table, (resume table).renumber r = resume (table.renumber r)) :
    nextRow (table.renumber r) resume (s.renumber r) raw =
      (nextRow table resume s raw).map (renumberAnswer r) := by
  have hpush := table.push?_renumber (r := r) (Cells.read (trim raw)) s.line
  have hline : (s.renumber r).line = r s.line := rfl
  unfold nextRow
  simp only [hline, hpush]
  cases table.push? ⟨Cells.read (trim raw), s.line⟩ with
  | none => rfl
  | some next =>
    simp [Session.renumber, hresume]

theorem examplesRow_renumber (table : Option Table) :
    examplesRow (table.map (·.renumber r)) (s.renumber r) raw =
      (examplesRow table s raw).map (renumberAnswer r) := by
  cases table with
  | none => rfl
  | some table => exact nextRow_renumber s raw table fun _ => rfl

end Reader

theorem LineKind.reader_renumber (kind : LineKind) (s : Session) (raw : Text) :
    (kind.renumber r).reader (s.renumber r) raw = (kind.reader s raw).map (renumberAnswer r) := by
  cases kind with
  | tags => exact Reader.tagLine_renumber s raw
  | feature => exact Reader.featureHeader_renumber s raw
  | rule => exact Reader.ruleHeader_renumber s raw
  | scenario category blocks => exact Reader.scenarioHeader_renumber s raw category blocks
  | examples => exact Reader.examplesHeader_renumber s raw
  | background => exact Reader.backgroundHeader_renumber s raw
  | repeatedBackground => exact Reader.repeatedBackground_renumber s raw
  | groupDescription => exact Reader.groupDescription_renumber s raw
  | statementDescription => exact Reader.statementDescription_renumber s raw
  | step => exact Reader.stepLine_renumber s raw
  | fence => exact Reader.fenceLine_renumber s raw
  | docstring block => exact Reader.docstringLine_renumber s raw block
  | firstRow => exact Reader.firstRow_renumber s raw
  | examplesRow table => exact Reader.examplesRow_renumber s raw table
  | nextRow table => exact Reader.nextRow_renumber s raw table fun _ => rfl

/-! ## 5. Lines -/

theorem Mode.kinds_renumber (mode : Mode) :
    (mode.renumber r).kinds = mode.kinds.map (·.renumber r) := by
  cases mode <;> rfl

namespace Session

theorem read_renumber (s : Session) (raw : Text) :
    (s.renumber r).read raw = renumberAnswer r (s.read raw) := by
  have hmode : (s.renumber r).mode = s.mode.renumber r := rfl
  have hrecognise : recognise (s.renumber r).mode.readers (s.renumber r) raw =
      (recognise s.mode.readers s raw).map (renumberAnswer r) := by
    rw [hmode, Mode.readers_eq_map_kinds, Mode.readers_eq_map_kinds, Mode.kinds_renumber]
    generalize s.mode.kinds = kinds
    induction kinds with
    | nil => rfl
    | cons kind kinds ih =>
      unfold recognise at ih ⊢
      simp only [List.map_cons, List.findSome?_cons, LineKind.reader_renumber]
      cases kind.reader s raw with
      | none => exact ih
      | some answer => rfl
  unfold Session.read
  rw [hrecognise, s.unexpected_renumber]
  cases recognise s.mode.readers s raw <;> rfl

/-- A session that has counted other lines, and reads on with numbers that fit
    the renumbering. -/
def renumberFrom (s : Session) (r : Nat → Nat) (line : Nat) : Session :=
  { s.renumber r with line := line }

variable {s t : Session} {line : Nat}

theorem consults_renumberFrom (raw : Text) :
    (s.renumberFrom r line).consults raw = s.consults raw := by
  unfold consults skips isComment inDocstring renumberFrom Session.renumber
  cases s.mode <;> rfl

theorem enter_renumberFrom (hline : r (s.line + 1) = line + 1) (raw : Text) :
    (s.renumberFrom r line).enter raw = (s.enter raw).renumber r := by
  unfold Session.enter
  rw [consults_renumberFrom]
  simp only [renumberFrom, Session.renumber, hline]
  rfl

theorem leaveTable_renumber (s : Session) (raw : Text) :
    (s.renumber r).leaveTable raw = (s.leaveTable raw).renumber r := by
  unfold leaveTable
  rw [inTable_renumber, ← closeTable_renumber]
  split <;> rfl

theorem comment_renumber (s : Session) (raw : Text) :
    (s.renumber r).comment raw = renumberAnswer r (s.comment raw) := by
  have hdirective : (s.renumber r).directive? raw = s.directive? raw := by
    have hcomment : (s.renumber r).isComment raw = s.isComment raw := by
      unfold isComment
      rw [inDocstring_renumber]
    have hstart : ((s.renumber r).mode = .start) = (s.mode = .start) :=
      propext (Mode.renumber_eq_start_iff s.mode)
    have htags : (s.renumber r).tags.isEmpty = s.tags.isEmpty := List.isEmpty_map
    unfold Session.directive?
    simp only [hcomment, hstart, htags]
    rfl
  unfold comment
  rw [hdirective]
  cases s.directive? raw with
  | none => rfl
  | some code =>
    have hfixed : (s.renumber r).fixed = s.fixed := rfl
    have hcatalogue : (s.renumber r).catalogue = s.catalogue := rfl
    simp only [hfixed, hcatalogue]
    split
    · rfl
    · cases s.catalogue.find? code <;> rfl

theorem feed_renumberFrom (hline : r (s.line + 1) = line + 1) (raw : Text) :
    (s.renumberFrom r line).feed raw = renumberAnswer r (s.feed raw) := by
  have hdocstring : (s.renumberFrom r line).inDocstring = s.inDocstring := s.inDocstring_renumber
  have hskips : (s.renumberFrom r line).skips raw = s.skips raw := by
    unfold skips
    rw [hdocstring]
  have hcomment : (s.renumberFrom r line).isComment raw = s.isComment raw := by
    unfold isComment
    rw [hdocstring]
  have hfacing : (s.renumberFrom r line).facing raw = (s.facing raw).renumber r := by
    unfold facing
    rw [enter_renumberFrom hline, leaveTable_renumber]
  rw [feed_eq, feed_eq, hskips, hcomment, hfacing, enter_renumberFrom hline, comment_renumber,
    read_renumber]
  split
  · rfl
  · split <;> rfl

/-- Reading lines under other numbers gives the same session or the same failure
    under these numbers. -/
theorem feedAll_renumberFrom (raws : List Text)
    (hr : ∀ n < raws.length, r (s.line + n + 1) = line + n + 1) :
    (s.renumberFrom r line).feedAll raws =
      ((s.feedAll raws).map (·.renumberFrom r (line + raws.length))).mapError (·.renumber r) := by
  induction raws generalizing s line with
  | nil => rfl
  | cons raw rest ih =>
    rw [feedAll_cons, feedAll_cons, feed_renumberFrom (hr 0 (by simp))]
    cases hnext : s.feed raw with
    | error failure => rfl
    | ok next =>
      have hcount := (feed_setup hnext).2
      -- The number that the renumbering gives to this line is the one that comes next.
      have hfirst : r next.line = line + 1 := by
        rw [hcount]
        exact hr 0 (by simp)
      have hsame : next.renumber r = next.renumberFrom r (line + 1) := by
        rw [renumberFrom, ← hfirst]
        rfl
      rw [renumberAnswer_ok, hsame, List.length_cons, Nat.add_comm rest.length 1, ← Nat.add_assoc]
      apply ih
      intro n hn
      have hlater := hr (n + 1) (by simpa using hn)
      have hindex : next.line + n + 1 = s.line + (n + 1) + 1 := by omega
      rw [hindex, hlater]
      omega

/-! ## 6. The end of the text -/

theorem finishRule_eq (s : Session) :
    s.finishRule =
      (s.rule.map (·.closeAll (s.statement.map s.mode.attach))).getD (.start .absent []) := by
  unfold finishRule
  rw [closeTable_eq, closeStatement_eq]

theorem finishSteps_eq (s : Session) :
    s.finishSteps = (s.statement.map s.mode.attach).elim [] (·.steps) := by
  unfold finishSteps
  rw [closeTable_eq]

theorem finishRule_renumberFrom (s : Session) (line : Nat) (hrule : s.rule.isSome = true) :
    (s.renumberFrom r line).finishRule = s.finishRule.renumber r := by
  obtain ⟨rule, hrule⟩ := Option.isSome_iff_exists.mp hrule
  rw [finishRule_eq, finishRule_eq]
  simp only [renumberFrom, Session.renumber, hrule, Option.map_some, Option.getD_some]
  cases s.statement with
  | none => rfl
  | some statement =>
    simp [Group.closeAll, Group.renumber_close, attach_renumber]

theorem finishFeature_renumberFrom (s : Session) (line : Nat) :
    (s.renumberFrom r line).finishFeature = s.finishFeature.map (·.renumber r) := by
  -- The number of the last line is not part of the tree.
  have hline : (s.renumberFrom r line).finishFeature = (s.renumber r).finishFeature := by
    unfold finishFeature
    rw [closeTable_eq, closeTable_eq, closeStatement_eq, closeStatement_eq, closeRule_eq,
      closeRule_eq]
    rfl
  rw [hline]
  unfold finishFeature
  rw [← closeTable_renumber, ← closeStatement_renumber, ← closeRule_renumber]
  rfl

theorem finishSteps_renumberFrom (s : Session) (line : Nat) :
    (s.renumberFrom r line).finishSteps = s.finishSteps.map (·.renumber r) := by
  rw [finishSteps_eq, finishSteps_eq]
  simp only [renumberFrom, Session.renumber]
  cases s.statement with
  | none => rfl
  | some statement => simp [← attach_renumber]

end Session

end Gherkin
