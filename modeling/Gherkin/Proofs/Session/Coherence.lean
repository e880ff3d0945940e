/-
  Gherkin/Proofs/Session/Coherence.lean
  =====================================
  **Which sessions occur.**

  A session has many slots, and most of their combinations never occur.  This
  file says which ones do.  `Session.Sound` ties the slots to the mode and to
  what is being read; it holds before the first line (`Sound.opening`), every
  line keeps it (`Sound.feed`), and so it holds along every reading
  (`Sound.feedAll`).
-/
import Gherkin.Parser
import Gherkin.Proofs.Session.Slots
import Gherkin.Proofs.Text.Trimming

namespace Gherkin

open Text

namespace Session

/-! ## 1. The invariant -/

/-- The current group has neither a background nor a scenario yet. -/
def FreshGroup (s : Session) : Prop :=
  ∃ group, s.group? = some group ∧ group.background = none ∧ group.scenarios = []

/-- What the mode says about the pending tags and the open statement. -/
def ModeFits (s : Session) : Prop :=
  match s.mode with
  | .start => s.entry = .feature ∧ s.feature = none ∧ s.rule = none ∧ s.statement = none
  | .feature | .rule => s.tags = [] ∧ s.statement = none ∧ s.FreshGroup
  | .tagged => s.tags ≠ []
  | .background | .scenario | .steps => s.tags = [] ∧ s.statement.isSome = true
  | .docstring _ | .stepTable _ => s.tags = [] ∧ s.hasSteps = true
  | .examples _ =>
    s.tags = [] ∧ ∃ blocks, s.statement.bind (·.blocks?) = some blocks ∧ blocks ≠ []

/-- What the entry point says about the open nodes. -/
def EntryFits (s : Session) : Prop :=
  match s.entry with
  | .feature => s.mode ≠ .start → s.feature.isSome = true
  | .rule => s.feature = none ∧ s.rule.isSome = true
  | .steps =>
    s.feature = none ∧ s.rule = none ∧
      ∃ statement, s.statement = some statement ∧ statement.isScenario = true ∧
        statement.blocks? = none

/-- The invariant of reading. -/
structure Sound (s : Session) : Prop where
  mode : s.ModeFits
  entry : s.EntryFits
  lastType : s.lastType = s.statement.bind (·.lastType)
  /-- A background opens its group. -/
  background : ∀ statement, s.statement = some statement → statement.isScenario = false →
    s.FreshGroup

/-! ## 2. Before the first line -/

def Entry.mode : Entry → Mode
  | .feature => .start
  | .rule => .rule
  | .steps => .steps

/-- The session before the first line. -/
def opening (entry : Entry) (catalogue : Catalogue) (source : Option Text)
    (standard : Language) (chosen : Option Language) : Session where
  entry := entry
  catalogue := catalogue
  standard := standard
  fixed := chosen.isSome
  source := source
  chosen := chosen
  line := 0
  mode := Entry.mode entry
  lastType := none
  tags := []
  feature := none
  rule := if entry = .rule then some (.start .absent []) else none
  statement := if entry = .steps then some (.scenario ⟨.absent, [], [], [], none⟩) else none

/-- A parser opens a session when its catalogue has the standard language and
    the language chosen by the caller. -/
theorem session_eq_ok_iff {parser : Parser} {entry : Entry} {source : Option Text}
    {s : Session} :
    parser.session entry source = .ok s ↔
      ∃ standard, parser.catalogue.find? parser.catalogue.standard = some standard ∧
        (parser.language.bind parser.catalogue.find?).isSome = parser.language.isSome ∧
        s = opening entry parser.catalogue source standard
          (parser.language.bind parser.catalogue.find?) := by
  unfold Parser.session Parser.find
  cases hstandard : parser.catalogue.find? parser.catalogue.standard with
  | none => simp [bind, Except.bind]
  | some standard =>
    cases hlanguage : parser.language with
    | none => cases entry <;> simp [bind, Except.bind, pure, Except.pure, opening, Entry.mode, eq_comm]
    | some code =>
      cases hcode : parser.catalogue.find? code with
      | none => simp [hcode, bind, Except.bind, Except.map]
      | some language =>
        cases entry <;>
          simp [hcode, bind, Except.bind, Except.map, pure, Except.pure, opening, Entry.mode,
            eq_comm]

theorem Sound.opening (entry : Entry) (catalogue : Catalogue) (source : Option Text)
    (standard : Language) (chosen : Option Language) :
    (opening entry catalogue source standard chosen).Sound := by
  constructor
  · cases entry <;> simp [Session.opening, Entry.mode, ModeFits, FreshGroup, group?, Group.start]
  · cases entry <;>
      simp [Session.opening, Entry.mode, EntryFits, Statement.isScenario, Statement.blocks?]
  · cases entry <;> simp [Session.opening, Statement.lastType, Statement.steps]
  · cases entry <;> simp [Session.opening, Statement.isScenario]

/-! ## 3. One line -/

/-- The slots that the invariant speaks about do not include the language and
    the number of the line. -/
theorem Sound.withLanguage {s : Session} (h : s.Sound) (line : Nat) (chosen : Option Language) :
    Sound { s with line := line, chosen := chosen } :=
  ⟨h.mode, h.entry, h.lastType, h.background⟩

theorem Sound.rests {s t : Session} (h : s.Sound) (hrests : s.Rests t) : t.Sound := by
  obtain ⟨chosen, rfl, -⟩ := hrests
  exact h.withLanguage _ _

theorem Sound.enter {s : Session} (h : s.Sound) (raw : Text) : (s.enter raw).Sound :=
  h.withLanguage _ _

theorem hasSteps_eq_true_iff {s : Session} :
    s.hasSteps = true ↔ ∃ statement, s.statement = some statement ∧ statement.steps ≠ [] := by
  simp [hasSteps, Option.any_eq_true]

/-- A new mode has to fit the slots as they are. -/
theorem Sound.withMode {s : Session} (h : s.Sound) (hstart : s.mode ≠ .start) {mode : Mode}
    (hfits : ModeFits { s with mode := mode }) : Sound { s with mode := mode } := by
  refine ⟨hfits, ?_, h.lastType, h.background⟩
  have hentry := h.entry
  unfold EntryFits at hentry ⊢
  cases he : s.entry with
  | feature =>
    simp only [he] at hentry ⊢
    exact fun _ => hentry hstart
  | rule => simpa only [he] using hentry
  | steps => simpa only [he] using hentry

/-- A change of the open statement that leaves it what it is: a background, a
    scenario or an outline. -/
theorem Sound.change {s : Session} (h : s.Sound) (hstart : s.mode ≠ .start)
    {f : Statement → Statement} {mode : Mode} {tags : List Tag} {lastType : Option StepType}
    (hscenario : ∀ statement, (f statement).isScenario = statement.isScenario)
    (hblocks : ∀ statement, statement.blocks? = none → (f statement).blocks? = none)
    (hfits : ModeFits { s with
      statement := s.statement.map f, mode := mode, tags := tags, lastType := lastType })
    (hlast : lastType = (s.statement.map f).bind (·.lastType)) :
    Sound { s with
      statement := s.statement.map f, mode := mode, tags := tags, lastType := lastType } := by
  refine ⟨hfits, ?_, hlast, ?_⟩
  · have hentry := h.entry
    unfold EntryFits at hentry ⊢
    cases he : s.entry with
    | feature =>
      simp only [he] at hentry ⊢
      exact fun _ => hentry hstart
    | rule => simpa only [he] using hentry
    | steps =>
      simp only [he] at hentry ⊢
      obtain ⟨hfeature, hrule, statement, hstatement, hkind, hnone⟩ := hentry
      exact ⟨hfeature, hrule, f statement, by simp [hstatement], (hscenario _).trans hkind,
        hblocks _ hnone⟩
  · intro statement hstatement hkind
    obtain ⟨old, hold, rfl⟩ := Option.map_eq_some_iff.mp hstatement
    exact h.background old hold ((hscenario old).symm.trans hkind)

theorem Sound.closeTable {s : Session} (h : s.Sound) : s.closeTable.Sound := by
  have hmode := h.mode
  rw [closeTable_eq]
  cases hs : s.mode with
  | examples table =>
    rw [ModeFits, hs] at hmode
    obtain ⟨htags, blocks, hblocks, -⟩ := hmode
    obtain ⟨statement, hstatement, -⟩ := Option.bind_eq_some_iff.mp hblocks
    apply h.change (by simp [hs]) (by simp [Mode.attach]) (by simp [Mode.attach])
    · simp [ModeFits, Mode.left, htags, hstatement]
    · simpa [hstatement, Mode.attach, Statement.lastType] using h.lastType
  | stepTable table =>
    rw [ModeFits, hs] at hmode
    obtain ⟨htags, hsteps⟩ := hmode
    obtain ⟨statement, hstatement, -⟩ := hasSteps_eq_true_iff.mp hsteps
    apply h.change (by simp [hs]) (by simp [Mode.attach]) (by simp [Mode.attach])
    · simp [ModeFits, Mode.left, htags, hstatement]
    · have hkept := Statement.lastType_mapLastStep (f := (·.withTable table)) (by simp) statement
      simpa [hstatement, Mode.attach, hkept] using h.lastType
  | _ =>
    have hsame : s.closeTable = s := by simp [Session.closeTable, hs]
    rw [closeTable_eq, hs] at hsame
    exact hsame.symm ▸ h

theorem Sound.facing {s : Session} (h : s.Sound) (raw : Text) : (s.facing raw).Sound :=
  facing_cases s raw (h.enter raw) (h.enter raw).closeTable

theorem ne_start_of_isOpen {mode : Mode} (h : mode.isOpen = true) : mode ≠ .start := by
  rintro rfl
  exact Bool.noConfusion h

theorem ne_start_of_hasStepLines {mode : Mode} (h : mode.hasStepLines = true) :
    mode ≠ .start := by
  rintro rfl
  exact Bool.noConfusion h

/-- At the head of a group nothing but its header and description has been
    read. -/
theorem ModeFits.head {s : Session} (h : s.ModeFits) (hs : s.mode = .feature ∨ s.mode = .rule) :
    s.tags = [] ∧ s.statement = none ∧ s.FreshGroup := by
  rcases hs with hs | hs <;> simpa [ModeFits, hs] using h

/-- Where steps may stand there is a statement to hold them. -/
theorem ModeFits.stepLines {s : Session} (h : s.ModeFits) (hs : s.mode.hasStepLines = true) :
    s.tags = [] ∧ ∃ statement, s.statement = some statement := by
  rw [← Option.isSome_iff_exists]
  cases hm : s.mode <;> simp_all [ModeFits, Mode.hasStepLines]

theorem Sound.startScenario {s : Session} (h : s.Sound) (hopen : s.mode.isOpen = true)
    (hgroup : s.group?.isSome = true) (node : Scenario) (hsteps : node.steps = []) :
    Sound { s.startStatement (.scenario node) .scenario with tags := [] } := by
  have hentry := h.entry
  rw [startStatement_eq, closeStatement_eq]
  constructor
  · simp [ModeFits]
  · unfold EntryFits at hentry ⊢
    cases he : s.entry with
    | feature =>
      simp only [he] at hentry ⊢
      have hfeature := hentry (ne_start_of_isOpen hopen)
      cases hrule : s.rule <;> simp [hfeature]
    | rule =>
      simp only [he] at hentry ⊢
      simp [hentry.1, hentry.2]
    | steps =>
      simp only [he] at hentry
      simp [group?, hentry.1, hentry.2.1] at hgroup
  · simp [Statement.lastType, Statement.steps, hsteps]
  · simp [Statement.isScenario]

theorem Sound.startRule {s : Session} (h : s.Sound) (hfeature : s.feature.isSome = true)
    (header : Header) : Sound { s.closeStatement.closeRule with
      rule := some (.start header s.tags), tags := [], lastType := none, mode := .rule } := by
  have hentry := h.entry
  rw [closeStatement_eq, closeRule_eq]
  constructor
  · simp [ModeFits, FreshGroup, group?, Group.start]
  · unfold EntryFits at hentry ⊢
    cases he : s.entry with
    | feature => cases hrule : s.rule <;> simp [hfeature]
    | rule => simp [he, Option.isSome_iff_ne_none.mp hfeature] at hentry
    | steps => simp [he, Option.isSome_iff_ne_none.mp hfeature] at hentry
  · simp
  · simp

theorem Sound.startBackground {s : Session} (h : s.Sound)
    (hs : s.mode = .feature ∨ s.mode = .rule) (header : Header) :
    (s.startStatement (.background ⟨header, [], []⟩) .background).Sound := by
  obtain ⟨htags, hstatement, hgroup⟩ := h.mode.head hs
  have hstart : s.mode ≠ .start := by rcases hs with hs | hs <;> simp [hs]
  have hentry := h.entry
  have hsame : s.closeStatement = s := by simp [Session.closeStatement, hstatement]
  rw [startStatement_eq, hsame]
  constructor
  · simp [ModeFits, htags]
  · unfold EntryFits at hentry ⊢
    cases he : s.entry with
    | feature =>
      simp only [he] at hentry ⊢
      exact fun _ => hentry hstart
    | rule => simpa only [he] using hentry
    | steps =>
      -- the body of a text of steps is a statement, and here none is open
      simp only [he] at hentry
      obtain ⟨-, -, statement, hopen, -⟩ := hentry
      simp [hstatement] at hopen
  · simp [Statement.lastType, Statement.steps]
  · intro _ _ _
    exact hgroup

theorem Sound.describeGroup {s : Session} (h : s.Sound)
    (hs : s.mode = .feature ∨ s.mode = .rule) (line : Text) :
    (s.mapGroup (·.describe line)).Sound := by
  obtain ⟨htags, hstatement, group, hgroup, hfresh⟩ := h.mode.head hs
  have hstart : s.mode ≠ .start := by rcases hs with hs | hs <;> simp [hs]
  have hentry := h.entry
  have hdescribed : (s.mapGroup (·.describe line)).FreshGroup := by
    refine ⟨group.describe line, ?_, hfresh⟩
    rw [mapGroup_eq]
    unfold group? at hgroup ⊢
    cases hrule : s.rule with
    | none =>
      rw [hrule] at hgroup
      obtain ⟨feature, hfeature, rfl⟩ := Option.map_eq_some_iff.mp hgroup
      simp [hfeature]
    | some rule =>
      rw [hrule] at hgroup
      obtain rfl := Option.some.inj hgroup
      simp
  constructor
  · rcases hs with hs | hs <;>
      simpa [ModeFits, mapGroup_eq, hs, htags, hstatement] using hdescribed
  · rw [mapGroup_eq]
    unfold EntryFits at hentry ⊢
    cases he : s.entry with
    | feature =>
      simp only [he] at hentry ⊢
      have hfeature := hentry hstart
      cases hrule : s.rule <;> simp [hfeature]
    | rule =>
      simp only [he] at hentry ⊢
      simp [hentry.1, hentry.2]
    | steps =>
      simp only [he] at hentry
      obtain ⟨-, -, statement, hopen, -⟩ := hentry
      simp [hstatement] at hopen
  · simpa [mapGroup_eq] using h.lastType
  · intro _ _ _
    exact hdescribed

/-- Taking a line keeps the invariant. -/
theorem Sound.takes {s t : Session} {raw : Text} {kind : LineKind} (h : s.Sound)
    (htakes : Takes s raw kind t) : t.Sound := by
  have hmode := h.mode
  cases htakes with
  | @tags tags hs hlead hrow =>
    have hne := Tag.ne_nil_of_ofLine hlead hrow
    refine ⟨?_, ?_, h.lastType, h.background⟩
    · by_cases hstart : s.mode = .start
      · simpa [ModeFits, hstart] using hmode
      · simp [ModeFits, hstart, hne]
    · have hentry := h.entry
      unfold EntryFits at hentry ⊢
      cases he : s.entry with
      | feature =>
        simp only [he] at hentry ⊢
        exact fun hmoved => hentry fun hstart => hmoved (if_pos hstart)
      | rule => simpa only [he] using hentry
      | steps => simpa only [he] using hentry
  | feature hs hfits =>
    rw [ModeFits, hs] at hmode
    obtain ⟨he, hfeature, hrule, hstatement⟩ := hmode
    constructor
    · simp [ModeFits, hstatement, FreshGroup, group?, hrule, Group.start]
    · simp [EntryFits, he]
    · exact h.lastType
    · simp [hstatement]
  | rule hs hfits hfeature => exact h.startRule hfeature _
  | scenario hs hknown hfits hgroup => exact h.startScenario hs hgroup _ rfl
  | examples hs hfits houtline =>
    obtain ⟨statement, hstatement, hblocks⟩ := Option.bind_eq_some_iff.mp houtline
    apply h.change (ne_start_of_isOpen hs) (by simp) (by simp)
    · simp [ModeFits, hstatement, hblocks]
    · simpa [mapStatement, hstatement, Statement.lastType] using h.lastType
  | background hs hfits htags hfresh => exact h.startBackground hs _
  | groupDescription hs htagless hplain => exact h.describeGroup hs _
  | statementDescription hs htagless hstepless hplain =>
    have hsteps : s.mode.hasStepLines = true := by rcases hs with hs | hs <;> rw [hs] <;> rfl
    obtain ⟨htags, statement, hstatement⟩ := hmode.stepLines hsteps
    apply h.change (ne_start_of_hasStepLines hsteps) (by simp) (by simp)
    · rcases hs with hs | hs <;> simp [ModeFits, hs, htags, hstatement]
    · simpa [mapStatement, hstatement, Statement.lastType] using h.lastType
  | step hs hfits hresolved =>
    obtain ⟨htags, statement, hstatement⟩ := hmode.stepLines hs
    apply h.change (ne_start_of_hasStepLines hs) (by simp) (by simp)
    · simp [ModeFits, mapStatement, htags, hstatement]
    · simp [hstatement, Statement.lastType]
  | fence hs hfits hsteps =>
    rw [ModeFits, hs] at hmode
    exact h.withMode (by simp [hs]) ⟨hmode.1, hsteps⟩
  | @closingFence block hs hcloses =>
    rw [ModeFits, hs] at hmode
    obtain ⟨htags, hsteps⟩ := hmode
    obtain ⟨statement, hstatement, -⟩ := hasSteps_eq_true_iff.mp hsteps
    apply h.change (by simp [hs]) (by simp) (by simp)
    · simp [ModeFits, mapStatement, htags, hstatement]
    · have hkept := Statement.lastType_mapLastStep
        (f := (·.withDocstring block.docstring)) (by simp) statement
      simpa [mapStatement, hstatement, hkept] using h.lastType
  | docstring hs hinside hpush =>
    rw [ModeFits, hs] at hmode
    exact h.withMode (by simp [hs]) hmode
  | firstRow hs hlead hsteps =>
    rw [ModeFits, hs] at hmode
    exact h.withMode (by simp [hs]) ⟨hmode.1, hsteps⟩
  | examplesHeadings hs =>
    rw [ModeFits, hs] at hmode
    exact h.withMode (by simp [hs]) hmode
  | examplesRow hs hpush =>
    rw [ModeFits, hs] at hmode
    exact h.withMode (by simp [hs]) hmode
  | nextRow hs hpush =>
    rw [ModeFits, hs] at hmode
    exact h.withMode (by simp [hs]) hmode

/-- Reading a line keeps the invariant. -/
theorem Sound.feed {s t : Session} {raw : Text} (h : s.Sound) (hfeed : s.feed raw = .ok t) :
    t.Sound := by
  rcases feed_cases hfeed with ⟨-, hrests⟩ | ⟨-, -, kind, -, htakes⟩
  · exact h.rests hrests
  · exact (h.facing raw).takes htakes

/-! ## 4. Every reading -/

/-- Reading lines keeps the invariant. -/
theorem Sound.feedAll {s t : Session} {raws : List Text} (h : s.Sound)
    (hfeed : s.feedAll raws = .ok t) : t.Sound :=
  feedAll_induction (P := fun s _ => s.Sound) hfeed h fun hsound hnext => hsound.feed hnext

theorem Sound.of_session {parser : Parser} {entry : Entry} {source : Option Text} {s : Session}
    (h : parser.session entry source = .ok s) : s.Sound := by
  obtain ⟨standard, -, -, rfl⟩ := session_eq_ok_iff.mp h
  exact Sound.opening _ _ _ _ _

end Session

end Gherkin
