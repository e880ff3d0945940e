/-
  Gherkin/Proofs/Session/Unexpected.lean
  ======================================
  **How unexpected lines are explained.**

  A line that no reader of the mode recognises is diagnosed by testing it against
  the headers once more, in an order of its own.  `Session.Explained` is the table
  of what comes out: which stages can reject a line in this way at all, and which
  explanation they give, in terms of what has been read before the line.

  Reading a feature gives no other explanation, whatever the keywords are
  (`Parser.feature_unexpectedLine`).  Most modes recognise every line, since a
  description has a node to go to; before the feature header the readers of
  headers are not tried, and behind it they never miss a group.  One fact about
  the course of a reading is needed besides `Session.Sound`: among the steps, a
  background has a step (`Session.Stepped`).
-/
import Gherkin.Proofs.Session.Locality

namespace Gherkin

open Text

namespace Session

/-! ## 1. The table -/

/-- The explanation of a line that nothing fits which may stand at the stage.  The
    categories that are tested earlier do not fit the line. -/
inductive Explained (s : Session) (line : Text) : Stage → Option Text → Prop
  | rule
      (fits : s.keywords.isHeader .rule line = true) :
      Explained s line .start (some "Rule should not be used here.".toList)
  | background
      (earlier : s.keywords.isHeader .rule line = false)
      (fits : s.keywords.isHeader .background line = true)
      (tags : s.tags = []) :
      Explained s line .start (some "Background should not be used here.".toList)
  | earlyTaggedBackground
      (earlier : s.keywords.isHeader .rule line = false)
      (fits : s.keywords.isHeader .background line = true)
      (tags : s.tags ≠ []) :
      Explained s line .start (some "Background does not support tags.".toList)
  | scenario
      (earlier : ∀ category ∈ [.rule, .background], s.keywords.isHeader category line = false)
      (fits : s.keywords.isHeader .scenario line = true) :
      Explained s line .start (some "Scenario may not occur before Feature.".toList)
  | outline
      (earlier : ∀ category ∈ [.rule, .background, .scenario],
        s.keywords.isHeader category line = false)
      (fits : s.keywords.isHeader .outline line = true) :
      Explained s line .start (some "ScenarioOutline may not occur before Feature.".toList)
  | noFeature
      (earlier : ∀ category ∈ [.rule, .background, .scenario, .outline],
        s.keywords.isHeader category line = false) :
      Explained s line .start (some "No feature found.".toList)
  | secondFeature {stage : Stage}
      (behind : stage = .tagged ∨ stage = .steps)
      (fits : s.keywords.isHeader .feature line = true) :
      Explained s line stage (some "Multiple features in one file are not supported.".toList)
  | lateBackground {stage : Stage}
      (behind : stage = .tagged ∨ stage = .steps)
      (earlier : s.keywords.isHeader .feature line = false)
      (fits : s.keywords.isHeader .background line = true)
      (scenarios : s.groupHasScenarios = true) :
      Explained s line stage
        (some "Background may not occur after Scenario/ScenarioOutline.".toList)
  | taggedBackground
      (earlier : s.keywords.isHeader .feature line = false)
      (fits : s.keywords.isHeader .background line = true)
      (scenarios : s.groupHasScenarios = false) :
      Explained s line .tagged (some "Background does not support tags.".toList)
  | unexplained {stage : Stage}
      (behind : stage = .tagged ∨ stage = .steps)
      (earlier : ∀ category ∈ [.feature, .background],
        s.keywords.isHeader category line = false) :
      Explained s line stage none

variable {s t : Session} {raw line : Text} {stage : Stage} {reason : Option Text}

/-- The table looks at nothing but the keywords, the tags and the group. -/
theorem Explained.congr (h : s.Explained line stage reason) (hkeywords : s.keywords = t.keywords)
    (htags : s.tags = t.tags) (hgroup : s.groupHasScenarios = t.groupHasScenarios) :
    t.Explained line stage reason := by
  cases h with
  | rule hfits => exact .rule (hkeywords ▸ hfits)
  | background hearlier hfits hs =>
    exact .background (hkeywords ▸ hearlier) (hkeywords ▸ hfits) (htags ▸ hs)
  | earlyTaggedBackground hearlier hfits hs =>
    exact .earlyTaggedBackground (hkeywords ▸ hearlier) (hkeywords ▸ hfits) (htags ▸ hs)
  | scenario hearlier hfits => exact .scenario (hkeywords ▸ hearlier) (hkeywords ▸ hfits)
  | outline hearlier hfits => exact .outline (hkeywords ▸ hearlier) (hkeywords ▸ hfits)
  | noFeature hearlier => exact .noFeature (hkeywords ▸ hearlier)
  | secondFeature hbehind hfits => exact .secondFeature hbehind (hkeywords ▸ hfits)
  | lateBackground hbehind hearlier hfits hs =>
    exact .lateBackground hbehind (hkeywords ▸ hearlier) (hkeywords ▸ hfits) (hgroup ▸ hs)
  | taggedBackground hearlier hfits hs =>
    exact .taggedBackground (hkeywords ▸ hearlier) (hkeywords ▸ hfits) (hgroup ▸ hs)
  | unexplained hbehind hearlier => exact .unexplained hbehind (hkeywords ▸ hearlier)

theorem Explained.stage_mem (h : s.Explained line stage reason) :
    stage ∈ [.start, .tagged, .steps] := by
  cases h with
  | secondFeature hbehind | lateBackground hbehind | unexplained hbehind =>
    rcases hbehind with rfl | rfl <;> decide
  | _ => decide

/-- The explanations that diagnosis could put together and never gives. -/
def unusedReasons : List Text :=
  ["Feature should not be used here.".toList, "Scenario should not be used here.".toList,
   "ScenarioOutline should not be used here.".toList]

theorem Explained.not_mem_unusedReasons (h : s.Explained line stage reason) :
    ∀ text ∈ reason, text ∉ unusedReasons := by
  cases h <;> decide

/-! ## 2. Backgrounds among the steps -/

/-- Among the steps, a background has a step. -/
def Stepped (s : Session) : Prop :=
  s.mode = .steps → ∀ statement, s.statement = some statement →
    statement.isScenario = true ∨ statement.steps ≠ []

theorem Stepped.of_ne (h : s.mode ≠ .steps) : s.Stepped := fun hmode => absurd hmode h

theorem Stepped.of_hasSteps (h : s.hasSteps = true) : s.Stepped := by
  intro _ statement hstatement
  obtain ⟨other, hother, hsteps⟩ := hasSteps_eq_true_iff.mp h
  rw [hstatement, Option.some.injEq] at hother
  exact .inr (hother ▸ hsteps)

theorem Stepped.closeTable (h : s.Stepped) (hsound : s.Sound) : s.closeTable.Stepped := by
  rw [closeTable_eq]
  intro hmode statement hstatement
  have hleft : s.mode.left = .steps := hmode
  obtain ⟨old, hold, rfl⟩ := Option.map_eq_some_iff.mp hstatement
  have hfits := hsound.mode
  cases hs : s.mode with
  | steps => exact h hs old hold
  | examples table =>
    rw [ModeFits, hs] at hfits
    obtain ⟨-, blocks, hblocks, -⟩ := hfits
    rw [hold, Option.bind_some] at hblocks
    cases old with
    | background node => cases hblocks
    | scenario node => exact .inl rfl
  | stepTable table =>
    rw [ModeFits, hs] at hfits
    obtain ⟨other, hother, hsteps⟩ := hasSteps_eq_true_iff.mp hfits.2
    rw [hold, Option.some.injEq] at hother
    exact .inr (by simpa [Mode.attach, hother] using hsteps)
  | _ => simp [hs, Mode.left] at hleft

theorem Stepped.facing (h : s.Stepped) (hsound : s.Sound) (raw : Text) :
    (s.facing raw).Stepped := by
  have henter : (s.enter raw).Stepped := h
  exact facing_cases s raw henter (henter.closeTable (hsound.enter raw))

/-- A line leads to the steps only by being a step or the end of the argument of
    one. -/
theorem Stepped.takes {kind : LineKind} (hsound : s.Sound) (htakes : Takes s raw kind t) :
    t.Stepped := by
  cases htakes with
  | step hs hfits hresolved =>
    obtain ⟨-, statement, hstatement⟩ := hsound.mode.stepLines hs
    exact .of_hasSteps (by simp [hasSteps, mapStatement, hstatement])
  | @closingFence block hs hcloses =>
    have hfits := hsound.mode
    rw [ModeFits, hs] at hfits
    obtain ⟨statement, hstatement, hsteps⟩ := hasSteps_eq_true_iff.mp hfits.2
    exact .of_hasSteps (by simpa [hasSteps, mapStatement, hstatement] using hsteps)
  | tags hs hlead hrow =>
    refine .of_ne ?_
    simp only
    split <;> simp
  | groupDescription hs htagless hplain =>
    refine .of_ne ?_
    rw [mapGroup_eq]
    rcases hs with hs | hs <;> simp [hs]
  | statementDescription hs htagless hstepless hplain =>
    refine .of_ne ?_
    rcases hs with hs | hs <;> simp [mapStatement, hs]
  | _ => exact .of_ne (by simp [startStatement])

theorem Stepped.feed (h : s.Stepped) (hsound : s.Sound) (hfeed : s.feed raw = .ok t) :
    t.Stepped := by
  rcases feed_cases hfeed with ⟨-, chosen, rfl, -⟩ | ⟨-, -, kind, -, htakes⟩
  · exact h
  · exact .takes (hsound.facing raw) htakes

/-- Every session that a reading goes through is stepped. -/
theorem Stepped.of_feedAll {parser : Parser} {entry : Entry} {source : Option Text}
    {raws : List Text} (hsession : parser.session entry source = .ok s)
    (hfeed : s.feedAll raws = .ok t) : t.Stepped := by
  have hopening : s.Stepped := by
    obtain ⟨standard, -, -, rfl⟩ := session_eq_ok_iff.mp hsession
    cases entry <;> simp [Stepped, opening, Entry.mode, Statement.isScenario]
  have hboth := feedAll_induction (P := fun u _ => u.Sound ∧ u.Stepped) hfeed
    ⟨.of_session hsession, hopening⟩ fun hu hnext => ⟨hu.1.feed hnext, hu.2.feed hu.1 hnext⟩
  exact hboth.2

/-! ## 3. Diagnosis -/

/-- The explanations in which a category is named, in full. -/
theorem message_start :
    (Reason.misplaced .rule).message = "Rule should not be used here.".toList ∧
      (Reason.misplaced .background).message = "Background should not be used here.".toList ∧
      (Reason.beforeFeature .scenario).message =
        "Scenario may not occur before Feature.".toList ∧
      (Reason.beforeFeature .outline).message =
        "ScenarioOutline may not occur before Feature.".toList :=
  ⟨String.toList_append.symm, String.toList_append.symm, String.toList_append.symm,
    String.toList_append.symm⟩

/-- Before the feature header only the header of a feature may stand, so that
    every other category is tested in turn. -/
theorem explained_of_start (hentry : s.entry = .feature) (hfeature : s.feature = none)
    (hrule : s.rule = none) (hstatement : s.statement = none)
    (hplain : s.keywords.isHeader .feature (trim raw) = false) :
    s.Explained (trim raw) .start ((s.diagnose raw).map (·.message)) := by
  obtain ⟨hruleText, hbackgroundText, hscenarioText, houtlineText⟩ := message_start
  have hgroup : s.group? = none := by simp [group?, hrule, hfeature]
  have hscenarios : s.groupHasScenarios = false := by
    simp [groupHasScenarios, hstatement, hgroup]
  cases hrules : s.keywords.isHeader .rule (trim raw) with
  | true =>
    have hdiagnose : s.diagnose raw = some (.misplaced .rule) := by simp [diagnose, hplain, hrules]
    rw [hdiagnose, Option.map_some, hruleText]
    exact .rule hrules
  | false =>
  cases hbackground : s.keywords.isHeader .background (trim raw) with
  | true =>
    by_cases htags : s.tags = []
    · have hdiagnose : s.diagnose raw = some (.misplaced .background) := by
        simp [diagnose, hplain, hrules, hbackground, backgroundReason, hscenarios, htags]
      rw [hdiagnose, Option.map_some, hbackgroundText]
      exact .background hrules hbackground htags
    · have hdiagnose : s.diagnose raw = some .taggedBackground := by
        simp [diagnose, hplain, hrules, hbackground, backgroundReason, hscenarios, htags]
      rw [hdiagnose]
      exact .earlyTaggedBackground hrules hbackground htags
  | false =>
  cases hscenario : s.keywords.isHeader .scenario (trim raw) with
  | true =>
    have hdiagnose : s.diagnose raw = some (.beforeFeature .scenario) := by
      simp [diagnose, hplain, hrules, hbackground, hscenario, scenarioReason, hgroup]
    rw [hdiagnose, Option.map_some, hscenarioText]
    exact .scenario (by simp [hrules, hbackground]) hscenario
  | false =>
  cases houtline : s.keywords.isHeader .outline (trim raw) with
  | true =>
    have hdiagnose : s.diagnose raw = some (.beforeFeature .outline) := by
      simp [diagnose, hplain, hrules, hbackground, hscenario, houtline, scenarioReason, hgroup]
    rw [hdiagnose, Option.map_some, houtlineText]
    exact .outline (by simp [hrules, hbackground, hscenario]) houtline
  | false =>
    have hdiagnose : s.diagnose raw = some .noFeature := by
      simp [diagnose, hplain, hrules, hbackground, hscenario, houtline, hentry, hfeature]
    rw [hdiagnose]
    exact .noFeature (by simp [hrules, hbackground, hscenario, houtline])

/-- Behind the feature header, where the headers of rules, scenarios and outlines
    may stand, only those of features and backgrounds are explained. -/
theorem explained_of_behind (hbehind : stage = .tagged ∨ stage = .steps)
    (hfeature : s.feature.isSome = true)
    (hplain : ∀ category ∈ [.rule, .scenario, .outline],
      s.keywords.isHeader category (trim raw) = false)
    (hbackground : s.keywords.isHeader .background (trim raw) = true →
      s.groupHasScenarios = false → stage = .tagged ∧ s.tags ≠ []) :
    s.Explained (trim raw) stage ((s.diagnose raw).map (·.message)) := by
  have hrule := hplain .rule (by decide)
  have hscenario := hplain .scenario (by decide)
  have houtline := hplain .outline (by decide)
  cases hheader : s.keywords.isHeader .feature (trim raw) with
  | true =>
    have hdiagnose : s.diagnose raw = some .secondFeature := by simp [diagnose, hheader, hfeature]
    rw [hdiagnose]
    exact .secondFeature hbehind hheader
  | false =>
  cases hfits : s.keywords.isHeader .background (trim raw) with
  | true =>
    cases hscenarios : s.groupHasScenarios with
    | true =>
      have hdiagnose : s.diagnose raw = some .lateBackground := by
        simp [diagnose, hheader, hrule, hfits, backgroundReason, hscenarios]
      rw [hdiagnose]
      exact .lateBackground hbehind hheader hfits hscenarios
    | false =>
      obtain ⟨rfl, htags⟩ := hbackground hfits hscenarios
      have hdiagnose : s.diagnose raw = some .taggedBackground := by
        simp [diagnose, hheader, hrule, hfits, backgroundReason, hscenarios, htags]
      rw [hdiagnose]
      exact .taggedBackground hheader hfits hscenarios
  | false =>
    have hdiagnose : s.diagnose raw = none := by
      simp [diagnose, hheader, hrule, hfits, hscenario, houtline,
        Option.isSome_iff_ne_none.mp hfeature]
    rw [hdiagnose]
    exact .unexplained hbehind (by simp [hheader, hfits])

theorem isHeader_of_taggable (h : ∀ kind ∈ taggableKinds, kind.fits s raw = false) :
    ∀ category ∈ [.rule, .scenario, .outline], s.keywords.isHeader category (trim raw) = false := by
  intro category hcategory
  simp only [List.mem_cons, List.not_mem_nil, or_false] at hcategory
  rcases hcategory with rfl | rfl | rfl
  · exact h .rule (by decide)
  · exact h (.scenario .scenario none) (by decide)
  · exact h (.scenario .outline (some [])) (by decide)

/-- Of a feature, the table explains every line that its readers do not
    recognise. -/
theorem explained_of_unrecognised (hsound : s.Sound) (hstepped : s.Stepped)
    (hentry : s.entry = .feature) (hkind : s.kind? raw = none) :
    s.Explained (trim raw) s.mode.stage ((s.diagnose raw).map (·.message)) := by
  have hmode := hsound.mode
  have hfeature : s.mode ≠ .start → s.feature.isSome = true := by
    have hfits := hsound.entry
    rwa [EntryFits, hentry] at hfits
  have hnone : ∀ kind ∈ s.mode.kinds, kind.fits s raw = false := by
    rw [kind?_eq, List.find?_eq_none] at hkind
    intro kind hmem
    exact (Bool.not_eq_true _).mp (hkind kind hmem)
  rw [ModeFits] at hmode
  cases hs : s.mode with
  | start =>
    rw [hs] at hmode hnone
    obtain ⟨-, hfeature, hrule, hstatement⟩ := hmode
    exact explained_of_start hentry hfeature hrule hstatement (hnone .feature (by decide))
  | tagged =>
    rw [hs] at hmode hnone
    exact explained_of_behind (.inl rfl) (hfeature (by simp [hs])) (isHeader_of_taggable hnone)
      fun _ _ => ⟨rfl, hmode⟩
  | steps =>
    rw [hs] at hmode hnone
    refine explained_of_behind (.inr rfl) (hfeature (by simp [hs]))
      (isHeader_of_taggable fun kind hmem => hnone kind (by simp [Mode.kinds, hmem])) ?_
    intro hfits hscenarios
    obtain ⟨statement, hstatement⟩ := Option.isSome_iff_exists.mp hmode.2
    have hrepeated := hnone .repeatedBackground (by decide)
    -- A background among the steps has a step, so its header would be refused.
    rcases hstepped hs statement hstatement with hscenario | hsteps
    · simp [groupHasScenarios, hstatement, hscenario] at hscenarios
    · have hkindless : statement.isScenario = false := by
        simp only [groupHasScenarios, hstatement, Option.any_some, Bool.or_eq_false_iff]
          at hscenarios
        exact hscenarios.1
      simp [LineKind.fits, hfits, hasSteps, hstatement, Statement.isBackground, hkindless,
        hsteps] at hrepeated
  | feature | rule =>
    rw [hs] at hmode hnone
    obtain ⟨-, -, group, hgroup, -⟩ := hmode
    have hdescription := hnone .groupDescription (by decide)
    simp [LineKind.fits, hgroup] at hdescription
  | background | scenario =>
    rw [hs] at hmode hnone
    have hdescription := hnone .statementDescription (by decide)
    simp [LineKind.fits, Option.isSome_iff_ne_none.mp hmode.2] at hdescription
  | docstring block | examples table | stepTable table =>
    rw [hs] at hnone
    simp [Mode.kinds, LineKind.fits] at hnone

theorem facing_groupHasScenarios (s : Session) (raw : Text) :
    (s.facing raw).groupHasScenarios = s.groupHasScenarios := by
  refine facing_cases s raw rfl ?_
  have hattach : (s.statement.map s.mode.attach).any (·.isScenario) =
      s.statement.any (·.isScenario) := by
    cases s.statement <;> cases s.mode <;> simp [Mode.attach]
  rw [closeTable_eq]
  exact congrArg (· || _) hattach

theorem stage_of_facing (hkind : (s.facing raw).kind? raw = none) :
    (s.facing raw).mode.stage = s.mode.left.stage := by
  have hrow : s.inTable = true → leads '|' (trim raw) = false := by
    intro htable
    by_contra hlead
    -- A row in a table is recognised by whatever has the table.
    have hsame : s.facing raw = s.enter raw := by simp [Session.facing, leaveTable, hlead]
    rw [hsame, kind?_eq] at hkind
    unfold inTable at htable
    cases hs : s.mode <;> simp_all [Session.enter, Mode.kinds, LineKind.fits]
  rw [facing_eq_closeTable hrow, closeTable_eq]
  rfl

/-- In a feature, a header that may stand where it does has a feature above it,
    so no line that is recognised is unexpected. -/
theorem not_unexpected_of_refuses (hsound : s.Sound) (hentry : s.entry = .feature)
    {kind : LineKind} {cause : Cause} (hkind : s.kind? raw = some kind)
    (h : Refuses s raw kind cause) : cause ≠ .unexpectedLine stage reason := by
  have hmode := LineKind.mode_of_mem_kinds (List.mem_of_find?_eq_some hkind)
  have hfeature : s.mode.isOpen = true → s.feature ≠ none := by
    intro hopen
    have hfits := hsound.entry
    rw [EntryFits, hentry] at hfits
    exact Option.isSome_iff_ne_none.mp (hfits (ne_start_of_isOpen hopen))
  cases h with
  | rule hfits hnone => exact absurd hnone (hfeature hmode)
  | scenario hfits hnone =>
    refine absurd ?_ (hfeature hmode.1)
    unfold group? at hnone
    split at hnone
    · cases hnone
    · exact Option.map_eq_none_iff.mp hnone
  | _ => simp

/-- A line of a feature that is unexpected is explained by the table, with what
    has been read before it. -/
theorem explained_of_feed (hsound : s.Sound) (hstepped : s.Stepped) (hentry : s.entry = .feature)
    {failure : Failure} (h : s.feed raw = .error failure)
    (hcause : failure.cause = .unexpectedLine stage reason) :
    stage = s.mode.left.stage ∧ s.Explained (trim raw) stage reason := by
  have hfaced := hsound.facing raw
  have hfacedEntry : (s.facing raw).entry = .feature := (facing_setup s raw).entry.trans hentry
  rcases feed_error_cases h with ⟨-, code, rfl⟩ |
    ⟨-, -, ⟨hkind, rfl⟩ | ⟨kind, cause, hkind, hrefuses, rfl⟩⟩
  · cases hcause
  · have hexplained := explained_of_unrecognised hfaced (hstepped.facing hsound raw) hfacedEntry
      hkind
    obtain ⟨rfl, rfl⟩ := Cause.unexpectedLine.inj hcause
    have htags : (s.facing raw).tags = s.tags := by
      refine facing_cases s raw rfl ?_
      rw [closeTable_eq]
      rfl
    exact ⟨stage_of_facing hkind, hexplained.congr (facing_keywords s raw) htags
      (facing_groupHasScenarios s raw)⟩
  · exact absurd hcause (not_unexpected_of_refuses hfaced hfacedEntry hkind hrefuses)

end Session

/-! ## 4. Parsers -/

namespace Parser

/-- An unexpected line of a feature is unexpected at one of three stages, and the
    table explains it; an open table counts as steps.  Some explanations are never
    given. -/
theorem feature_unexpectedLine {parser : Parser} {text : Text} {source : Option Text}
    {failure : Failure} {stage : Stage} {reason : Option Text}
    (h : parser.feature text source = .error failure)
    (hcause : failure.cause = .unexpectedLine stage reason) :
    stage ∈ [.start, .tagged, .steps] ∧
      (∃ s before raw after t, parser.session .feature source = .ok s ∧
        lines text = before ++ raw :: after ∧ failure.position.line = before.length + 1 ∧
        s.feedAll before = .ok t ∧ stage = t.mode.left.stage ∧
        t.Explained (trim raw) stage reason) ∧
      ∀ words ∈ reason, words ∉ Session.unusedReasons := by
  have hfails : parser.FailsWith .feature text source failure := h
  obtain ⟨s, before, raw, after, t, hsession, hlines, hbefore, hraw, hposition⟩ :=
    (failsWith_iff_feed (by simp [hcause])).mp hfails
  have hentry : t.entry = .feature := by
    obtain ⟨standard, -, -, rfl⟩ := Session.session_eq_ok_iff.mp hsession
    exact (Session.feedAll_setup hbefore).entry
  obtain ⟨hstage, hexplained⟩ := Session.explained_of_feed
    ((Session.Sound.of_session hsession).feedAll hbefore)
    (Session.Stepped.of_feedAll hsession hbefore) hentry hraw hcause
  exact ⟨hexplained.stage_mem,
    ⟨s, before, raw, after, t, hsession, hlines, hposition, hbefore, hstage, hexplained⟩,
    hexplained.not_mem_unusedReasons⟩

/-- For instance a background behind the table of a step, below a scenario of the
    same rule. -/
theorem feature_unexpectedLine_background :
    ∃ failure, standard.feature
          "Feature: F\nRule: R\nScenario: S\nGiven a\n| x |\nBackground:".toList none =
        .error failure ∧
      failure.cause = .unexpectedLine .steps
        (some "Background may not occur after Scenario/ScenarioOutline.".toList) ∧
      ∃ s before raw after t, standard.session .feature none = .ok s ∧
        lines "Feature: F\nRule: R\nScenario: S\nGiven a\n| x |\nBackground:".toList =
          before ++ raw :: after ∧
        failure.position.line = before.length + 1 ∧ s.feedAll before = .ok t ∧
        .steps = t.mode.left.stage ∧
        t.Explained (trim raw) .steps
          (some "Background may not occur after Scenario/ScenarioOutline.".toList) := by
  have hread : ∃ failure, standard.feature
          "Feature: F\nRule: R\nScenario: S\nGiven a\n| x |\nBackground:".toList none =
        .error failure ∧
      failure.cause = .unexpectedLine .steps
        (some "Background may not occur after Scenario/ScenarioOutline.".toList) := ⟨_, rfl, rfl⟩
  obtain ⟨failure, hfails, hcause⟩ := hread
  exact ⟨failure, hfails, hcause, (feature_unexpectedLine hfails hcause).2.1⟩

end Parser

end Gherkin
