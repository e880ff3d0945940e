/-
  Gherkin/Proofs/Session/StepsFragment.lean
  =========================================
  **Bare steps, read on their own and below the header of a scenario.**

  A session that reads bare steps has an open scenario without a header, and it
  expects steps from the start.  Below a header a description may come first, so
  a session there expects something else until it has seen a step or a tag.
  `InScenario` relates the two: either they expect the same, or no step has been
  read.  Whatever the first session takes, the second one takes as well
  (`InScenario.feedAll`).
-/
import Gherkin.Proofs.Session.RuleFragment
import Mathlib.Data.List.Find

namespace Gherkin

open Text

def Statement.withHeader (header : Header) : Statement → Statement
  | .background node => .background { node with header := header }
  | .scenario node => .scenario { node with header := header }

/-! ## 1. Sessions of bare steps -/

/-- The kinds of line that can stand among bare steps. -/
def LineKind.inSteps : LineKind → Bool
  | .tags | .step | .fence | .docstring _ | .firstRow | .nextRow _ => true
  | _ => false

/-- A scenario that has steps and nothing else. -/
def Statement.Bare (statement : Statement) : Prop :=
  ∃ header steps, statement = .scenario ⟨header, [], [], steps, none⟩

theorem Statement.Bare.mapSteps {statement : Statement} (h : statement.Bare)
    (f : List Step → List Step) : (statement.mapSteps f).Bare := by
  obtain ⟨header, steps, rfl⟩ := h
  exact ⟨header, f steps, rfl⟩

namespace Session

/-- A session that reads bare steps. -/
structure StepsOnly (s : Session) : Prop where
  sound : s.Sound
  entry : s.entry = .steps
  mode : s.mode ≠ .background ∧ s.mode ≠ .scenario
  statement : ∃ statement, s.statement = some statement ∧ statement.Bare

variable {s t u : Session} {host : Feature} {header : Header} {raw : Text} {kind : LineKind}

theorem StepsOnly.ne_start (h : s.StepsOnly) : s.mode ≠ .start :=
  h.sound.ne_start (by simp [h.entry])

theorem StepsOnly.alone (h : s.StepsOnly) : s.feature = none ∧ s.rule = none := by
  have hfits := h.sound.entry
  rw [EntryFits, h.entry] at hfits
  exact ⟨hfits.1, hfits.2.1⟩

theorem StepsOnly.ne_head (h : s.StepsOnly) : ¬(s.mode = .feature ∨ s.mode = .rule) := by
  intro hs
  obtain ⟨statement, hstatement, -⟩ := h.statement
  have hnone := (h.sound.mode.head hs).2.1
  rw [hstatement] at hnone
  simp at hnone

theorem StepsOnly.inSteps (h : s.StepsOnly) (htakes : Takes s raw kind t) :
    kind.inSteps = true := by
  obtain ⟨hfeature, hrule⟩ := h.alone
  obtain ⟨statement, hstatement, own, steps, rfl⟩ := h.statement
  have hexamples : ∀ table, s.mode ≠ .examples table := by
    intro table hs
    have hmode := h.sound.mode
    rw [ModeFits, hs] at hmode
    obtain ⟨-, blocks, hblocks, -⟩ := hmode
    simp [hstatement, Statement.blocks?] at hblocks
  cases htakes with
  | tags hs hlead hrow => rfl
  | feature hs hfits => exact absurd hs h.ne_start
  | rule hs hfits hsome => simp [hfeature] at hsome
  | scenario hs hknown hfits hgroup => simp [group?, hrule, hfeature] at hgroup
  | examples hs hfits houtline => simp [hstatement, Statement.blocks?] at houtline
  | background hs hfits htags hfresh => exact absurd hs h.ne_head
  | groupDescription hs htagless hplain => exact absurd hs h.ne_head
  | statementDescription hs htagless hstepless hplain =>
    rcases hs with hs | hs
    · exact absurd hs h.mode.1
    · exact absurd hs h.mode.2
  | step hs hfits hresolved => rfl
  | fence hs hfits hsteps => rfl
  | closingFence hs hcloses => rfl
  | docstring hs hinside hpush => rfl
  | firstRow hs hlead hsteps => rfl
  | examplesHeadings hs => exact absurd hs (hexamples _)
  | examplesRow hs hpush => exact absurd hs (hexamples _)
  | nextRow hs hpush => rfl

theorem StepsOnly.mapSteps (h : s.StepsOnly) (f : List Step → List Step) :
    ∃ statement, s.statement.map (·.mapSteps f) = some statement ∧ statement.Bare := by
  obtain ⟨statement, hstatement, hbare⟩ := h.statement
  refine ⟨statement.mapSteps f, ?_, hbare.mapSteps f⟩
  rw [hstatement, Option.map_some]

theorem StepsOnly.takes (h : s.StepsOnly) (htakes : Takes s raw kind t) : t.StepsOnly := by
  have hkind := h.inSteps htakes
  have hsound := h.sound.takes htakes
  have hentry := (takes_setup htakes).1.entry.trans h.entry
  obtain ⟨statement, hstatement, hbare⟩ := h.statement
  cases htakes with
  | tags hs hlead hrow =>
    exact ⟨hsound, hentry, by simp [h.ne_start], statement, hstatement, hbare⟩
  | @step found type hs hfits hresolved =>
    have hsteps := h.mapSteps (· ++ [⟨found.keyword, type, found.text, none, none, s.line⟩])
    exact ⟨hsound, hentry, by simp, hsteps⟩
  | @closingFence block hs hcloses =>
    exact ⟨hsound, hentry, by simp, h.mapSteps (mapLast (·.withDocstring block.docstring))⟩
  | fence hs hfits hsteps => exact ⟨hsound, hentry, by simp, statement, hstatement, hbare⟩
  | docstring hs hinside hpush => exact ⟨hsound, hentry, by simp, statement, hstatement, hbare⟩
  | firstRow hs hlead hsteps => exact ⟨hsound, hentry, by simp, statement, hstatement, hbare⟩
  | nextRow hs hpush => exact ⟨hsound, hentry, by simp, statement, hstatement, hbare⟩
  | _ => exact Bool.noConfusion hkind

theorem StepsOnly.enter (h : s.StepsOnly) (raw : Text) : (s.enter raw).StepsOnly :=
  ⟨h.sound.enter raw, h.entry, h.mode, h.statement⟩

theorem StepsOnly.closeTable (h : s.StepsOnly) : s.closeTable.StepsOnly := by
  have hsound := h.sound.closeTable
  have hmode := h.mode
  obtain ⟨statement, hstatement, own, steps, rfl⟩ := h.statement
  rw [closeTable_eq] at hsound ⊢
  refine ⟨hsound, h.entry, ?_, ?_⟩
  · cases hs : s.mode <;> simp_all [Mode.left]
  · cases hs : s.mode <;> simp [hstatement, Mode.attach, Statement.Bare, Statement.mapBlocks,
      Statement.mapLastStep, Statement.mapSteps]

theorem StepsOnly.facing (h : s.StepsOnly) (raw : Text) : (s.facing raw).StepsOnly :=
  facing_cases s raw (h.enter raw) (h.enter raw).closeTable

/-! ## 2. Sessions below a header -/

/-- The session whose scenario has the given header and stands in the given
    feature. -/
def inScenario (s : Session) (host : Feature) (header : Header) (mode : Mode) : Session :=
  { s with
    entry := .feature
    chosen := some s.language
    mode := mode
    feature := some host
    statement := s.statement.map (·.withHeader header) }

/-- A session of bare steps and one below the header of a scenario have read the
    same. -/
inductive InScenario (host : Feature) (header : Header) (s : Session) : Session → Prop
  | same : InScenario host header s (s.inScenario host header s.mode)
  | unstepped (mode : s.mode = .steps) (steps : s.hasSteps = false) :
      InScenario host header s (s.inScenario host header .scenario)

theorem hasSteps_inScenario (mode : Mode) :
    (s.inScenario host header mode).hasSteps = s.hasSteps := by
  unfold hasSteps inScenario
  rcases s.statement with _ | ⟨node⟩ | ⟨node⟩ <;> rfl

theorem mapStatement_inScenario {f : Statement → Statement} (mode : Mode)
    (hf : ∀ statement, f (statement.withHeader header) = (f statement).withHeader header) :
    (s.inScenario host header mode).mapStatement f =
      (s.mapStatement f).inScenario host header mode := by
  unfold mapStatement inScenario
  simp [Function.comp_def, hf]
  rfl

theorem withHeader_mapSteps (f : List Step → List Step) (statement : Statement) :
    (statement.withHeader header).mapSteps f = (statement.mapSteps f).withHeader header := by
  cases statement <;> rfl

theorem enter_inScenario (mode : Mode) (raw : Text) :
    (s.inScenario host header mode).enter raw = (s.enter raw).inScenario host header mode := by
  have hlanguage := enter_language s raw
  unfold inScenario
  rw [hlanguage]
  unfold Session.enter
  split <;> rfl

/-- A step is taken wherever it may stand. -/
theorem takes_step_inScenario {mode : Mode} {found : StepMatch} {type : StepType}
    (hmode : mode.hasStepLines = true) (hfits : s.keywords.step? (trim raw) = some found)
    (hresolved : found.resolve s.lastType = some type) :
    Takes (s.inScenario host header mode) raw .step
      (inScenario { s.mapStatement
          (·.addStep ⟨found.keyword, type, found.text, none, none, s.line⟩) with
        lastType := some type, mode := .steps } host header .steps) := by
  have htakes : Takes (s.inScenario host header mode) raw .step
      { (s.inScenario host header mode).mapStatement
          (·.addStep ⟨found.keyword, type, found.text, none, none, s.line⟩) with
        lastType := some type, mode := .steps } := .step hmode hfits hresolved
  have hadd : (s.inScenario host header mode).mapStatement
      (·.addStep ⟨found.keyword, type, found.text, none, none, s.line⟩) =
      (s.mapStatement
        (·.addStep ⟨found.keyword, type, found.text, none, none, s.line⟩)).inScenario
          host header mode :=
    mapStatement_inScenario mode (withHeader_mapSteps _)
  rw [hadd] at htakes
  exact htakes

theorem takes_inScenario (h : s.StepsOnly) (htakes : Takes s raw kind t) :
    Takes (s.inScenario host header s.mode) raw kind (t.inScenario host header t.mode) := by
  have hkind := h.inSteps htakes
  cases htakes with
  | tags hs hlead hrow => exact .tags hs hlead hrow
  | step hs hfits hresolved => exact takes_step_inScenario hs hfits hresolved
  | @closingFence block hs hcloses =>
    have hattach : (s.inScenario host header s.mode).mapStatement
        (·.mapLastStep (·.withDocstring block.docstring)) =
        (s.mapStatement (·.mapLastStep (·.withDocstring block.docstring))).inScenario
          host header s.mode :=
      mapStatement_inScenario s.mode (withHeader_mapSteps _)
    have htakes := Takes.closingFence (s := s.inScenario host header s.mode) hs hcloses
    rw [hattach] at htakes
    exact htakes
  | fence hs hfits hsteps =>
    exact .fence hs hfits (by rw [hasSteps_inScenario]; exact hsteps)
  | docstring hs hinside hpush => exact .docstring hs hinside hpush
  | firstRow hs hlead hsteps =>
    exact .firstRow hs hlead (by rw [hasSteps_inScenario]; exact hsteps)
  | nextRow hs hpush => exact .nextRow hs hpush
  | _ => exact Bool.noConfusion hkind

theorem fits_inScenario (mode : Mode) (hkind : kind ≠ .groupDescription) :
    kind.fits (s.inScenario host header mode) raw = kind.fits s raw := by
  cases kind with
  | groupDescription => exact absurd rfl hkind
  | repeatedBackground =>
    have hbackground : (s.inScenario host header mode).statement.any (·.isBackground) =
        s.statement.any (·.isBackground) := by
      unfold inScenario
      rcases s.statement with _ | ⟨node⟩ | ⟨node⟩ <;> rfl
    unfold LineKind.fits
    rw [hbackground, hasSteps_inScenario]
    rfl
  | statementDescription => exact Option.isSome_map
  | _ => rfl

theorem kind?_inScenario {mode : Mode} (hhead : ¬(mode = .feature ∨ mode = .rule)) :
    (s.inScenario host header mode).kind? raw = mode.kinds.find? (LineKind.fits s raw) := by
  rw [kind?_eq]
  apply List.find?_congr
  intro kind hmem
  apply fits_inScenario
  rintro rfl
  exact hhead (LineKind.mode_of_mem_kinds hmem)

/-- Before the first step, bare steps begin with a step or with tags. -/
theorem takes_unstepped (hmode : s.mode = .steps) (hsteps : s.hasSteps = false)
    (h : s.StepsOnly) (hkind : s.kind? raw = some kind) (htakes : Takes s raw kind t) :
    (s.inScenario host header .scenario).kind? raw = some kind ∧
      Takes (s.inScenario host header .scenario) raw kind (t.inScenario host header t.mode) := by
  have hinside := h.inSteps htakes
  rw [kind?_inScenario (by simp)]
  rw [kind?_eq, hmode] at hkind
  cases htakes with
  | @tags tags hs hlead hrow =>
    have htakes := Takes.tags (s := s.inScenario host header .scenario) (.inr rfl) hlead hrow
    constructor
    · -- A step would have been found before the tags.
      have hstep : s.keywords.step? (trim raw) = none := by
        by_contra hsome
        obtain ⟨found, hfound⟩ := Option.ne_none_iff_exists'.mp hsome
        cases hfence : Fence.open? (trimStart raw) <;>
          simp [Mode.kinds, LineKind.fits, hfence, hfound] at hkind
      simp [Mode.kinds, taggableKinds, LineKind.fits, hstep, hlead]
    · rw [hmode]
      exact htakes
  | step hs hfits hresolved =>
    refine ⟨?_, takes_step_inScenario rfl hfits hresolved⟩
    simp [Mode.kinds, LineKind.fits, hfits]
  | fence hs hfits hany =>
    rw [hsteps] at hany
    exact Bool.noConfusion hany
  | firstRow hs hlead hany =>
    rw [hsteps] at hany
    exact Bool.noConfusion hany
  | closingFence hs hcloses => simp [hmode] at hs
  | docstring hs hinside hpush => simp [hmode] at hs
  | nextRow hs hpush => simp [hmode] at hs
  | _ => exact Bool.noConfusion hinside

/-! ## 3. One line -/

theorem InScenario.enter (h : InScenario host header s u) (raw : Text) :
    InScenario host header (s.enter raw) (u.enter raw) := by
  cases h with
  | same =>
    rw [enter_inScenario]
    exact .same
  | unstepped hmode hsteps =>
    rw [enter_inScenario]
    exact .unstepped hmode hsteps

theorem closeTable_inScenario :
    (s.inScenario host header s.mode).closeTable =
      s.closeTable.inScenario host header s.closeTable.mode := by
  have hattach : ∀ statement : Statement, s.mode.attach (statement.withHeader header) =
      (s.mode.attach statement).withHeader header := by
    intro statement
    cases s.mode <;> cases statement <;> rfl
  rw [closeTable_eq, closeTable_eq]
  simp [inScenario, Function.comp_def, hattach]
  rfl

theorem InScenario.facing (h : InScenario host header s u) (raw : Text) :
    InScenario host header (s.facing raw) (u.facing raw) := by
  have henter := h.enter raw
  unfold Session.facing leaveTable
  generalize s.enter raw = s', u.enter raw = u' at henter
  cases henter with
  | same =>
    have hin : (s'.inScenario host header s'.mode).inTable = s'.inTable := rfl
    rw [hin, closeTable_inScenario]
    split
    · exact .same
    · exact .same
  | unstepped hmode hsteps =>
    have hout : s'.inTable = false := by
      unfold inTable
      rw [hmode]
    have hout' : (s'.inScenario host header .scenario).inTable = false := rfl
    rw [hout, hout']
    exact .unstepped hmode hsteps

theorem InScenario.read (h : InScenario host header s u) (hs : s.StepsOnly)
    (hread : s.read raw = .ok t) :
    ∃ v, u.read raw = .ok v ∧ InScenario host header t v ∧ t.StepsOnly := by
  obtain ⟨kind, hkind, htakes⟩ := takes_of_read hread
  refine ⟨t.inScenario host header t.mode, ?_, .same, hs.takes htakes⟩
  cases h with
  | same =>
    have hsame : (s.inScenario host header s.mode).kind? raw = some kind := by
      rw [kind?_inScenario hs.ne_head, ← kind?_eq]
      exact hkind
    exact read_of_takes hsame (takes_inScenario hs htakes)
  | unstepped hmode hsteps =>
    obtain ⟨hfirst, htaken⟩ := takes_unstepped hmode hsteps hs hkind htakes
    exact read_of_takes hfirst htaken

theorem InScenario.feed (h : InScenario host header s u) (hs : s.StepsOnly)
    (hfeed : s.feed raw = .ok t) :
    ∃ v, u.feed raw = .ok v ∧ InScenario host header t v ∧ t.StepsOnly := by
  have hdocstring : u.inDocstring = s.inDocstring := by
    cases h with
    | same => rfl
    | unstepped hmode hsteps =>
      unfold inDocstring
      rw [hmode]
      rfl
  have hskips : u.skips raw = s.skips raw := by rw [skips, skips, hdocstring]
  have hcomment : u.isComment raw = s.isComment raw := by rw [isComment, isComment, hdocstring]
  have hstart : u.mode ≠ .start := by
    cases h with
    | same => exact hs.ne_start
    | unstepped hmode hsteps => exact Mode.noConfusion
  rw [feed_eq] at hfeed ⊢
  rw [hskips, hcomment]
  split at hfeed
  · obtain rfl : s.enter raw = t := by simpa using hfeed
    exact ⟨u.enter raw, by simp [*], h.enter raw, hs.enter raw⟩
  · split at hfeed
    · rw [comment_of_ne_start (s := s.enter raw) hs.ne_start] at hfeed
      obtain rfl : s.enter raw = t := by simpa using hfeed
      refine ⟨u.enter raw, ?_, h.enter raw, hs.enter raw⟩
      simp [*, comment_of_ne_start (s := u.enter raw) hstart]
    · obtain ⟨v, hread, hv, ht⟩ := (h.facing raw).read (hs.facing raw) hfeed
      exact ⟨v, by simp [*], hv, ht⟩

/-! ## 4. Many lines -/

theorem InScenario.feedAll {raws : List Text} (h : InScenario host header s u) (hs : s.StepsOnly)
    (hfeed : s.feedAll raws = .ok t) :
    ∃ v, u.feedAll raws = .ok v ∧ InScenario host header t v ∧ t.StepsOnly := by
  induction raws generalizing s u with
  | nil =>
    obtain rfl : s = t := by simpa using hfeed
    exact ⟨u, rfl, h, hs⟩
  | cons raw rest ih =>
    obtain ⟨next, hnext, hrest⟩ := ok_of_feedAll_cons hfeed
    obtain ⟨v, hv, hrelated, hbare⟩ := h.feed hs hnext
    rw [feedAll_cons, hv]
    exact ih hrelated hbare hrest

/-- At the end of the text the scenario is closed with the steps that have been
    read. -/
theorem InScenario.finishFeature (h : InScenario host header s u) (hs : s.StepsOnly) :
    u.finishFeature =
      some { host with
        top := host.top.close (.scenario ⟨header, [], [], s.finishSteps, none⟩) } := by
  obtain ⟨-, hrule⟩ := hs.alone
  obtain ⟨statement, hstatement, own, steps, rfl⟩ := hs.statement
  unfold Session.finishFeature finishSteps
  rw [closeTable_eq s, closeTable_eq u, closeStatement_eq, closeRule_eq]
  cases h with
  | same =>
    cases hm : s.mode <;>
      simp [inScenario, hrule, hstatement, Group.closeAll, Mode.attach, Statement.withHeader,
        Statement.mapBlocks, Statement.mapLastStep, Statement.mapSteps, Statement.steps]
  | unstepped hmode hsteps =>
    simp [inScenario, hmode, hrule, hstatement, Group.closeAll, Mode.attach,
      Statement.withHeader, Statement.steps]

end Session

end Gherkin
