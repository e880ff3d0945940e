/-
  Gherkin/Proofs/Session/StepTypes.lean
  =====================================
  **Which type a step gets.**

  The keyword of a step and the steps before it in its statement decide its type
  (`Step.TypedBehind`).  A session remembers the last type in a slot of its own,
  but that slot always agrees with the open statement (`Sound.lastType`), so
  neither tables, docstrings and Examples blocks nor the boundaries of statements
  and rules can spoil it.

  For the same reason a conjunction has nothing to continue exactly where the
  open statement has no step (`feed_noPreviousStep_iff`).  What a session thinks
  of a line before it has left a table is the same as afterwards, because no step
  line is a row.
-/
import Gherkin.Proofs.Keyword.StepWords
import Gherkin.Proofs.Session.Faithfulness
import Gherkin.Proofs.Session.Locality
import Gherkin.Proofs.Tree.Walk

namespace Gherkin

open Text

/-! ## 1. One step behind another -/

/-- The type of a step is what its keyword and the steps before it in the same
    statement say. -/
structure Step.TypedBehind (keywords : Keywords) (before : List Step) (step : Step) : Prop where
  known : ∃ type, step.keyword ∈ keywords.stepWords type
  own : step.keyword ≠ neutralWord → ∀ type, type.isConjunction = false →
    step.keyword ∈ keywords.stepWords type → step.type = type
  neutral : step.keyword = neutralWord →
    step.type = (before.getLast?.map (·.type)).getD .context
  conjunction : step.keyword ≠ neutralWord → ∀ type, type.isConjunction = true →
    step.keyword ∈ keywords.stepWords type →
    ∃ last, before.getLast? = some last ∧ step.type = last.type
  plain : step.type.isConjunction = false

namespace StepMatch

variable {found : StepMatch} {last : Option StepType} {type : StepType}

/-- A step continues the one before it or has the type as which it was
    recognised. -/
theorem resolve_cases (h : found.resolve last = some type) :
    last = some type ∨ found.type = type ∧ type.isConjunction = false := by
  unfold resolve StepType.resolve at h
  split at h
  · exact .inl h
  · split at h
    · exact .inl h
    · rename_i hplain
      rw [Option.some.injEq] at h
      exact .inr ⟨h, by simpa [h] using hplain⟩

theorem resolve_of_not_leads (h : leads '*' found.spelling = false) :
    found.resolve last = if found.type.isConjunction then last else some found.type := by
  simp [resolve, StepType.resolve, h]

theorem resolve_eq_none_iff :
    found.resolve last = none ↔ last = none ∧ found.type.isConjunction = true := by
  unfold resolve StepType.resolve
  cases last with
  | none => cases found.type.isConjunction <;> simp
  | some last =>
    simp only [Option.isSome_some, Bool.and_true, reduceCtorEq, false_and, iff_false]
    split
    · simp
    · split <;> simp

end StepMatch

theorem Step.Attested.plain {src : Source} {keywords : Keywords} {last : Option StepType}
    {step : Step} (h : step.Attested src keywords last)
    (hlast : ∀ type, last = some type → type.isConjunction = false) :
    step.type.isConjunction = false := by
  obtain ⟨raw, found, -, -, -, htype, -⟩ := h.line
  rcases StepMatch.resolve_cases htype with hsame | ⟨-, hplain⟩
  · exact hlast _ hsame
  · exact hplain

namespace StepsAttested

variable {src : Source} {keywords : Keywords} {last : Option StepType} {before after : List Step}
  {step : Step}

/-- Each step is attested behind the one before it. -/
theorem attested (h : StepsAttested src keywords last (before ++ step :: after)) :
    step.Attested src keywords ((before.getLast?.map (·.type)).or last) := by
  induction before generalizing last with
  | nil => exact h.1
  | cons first rest ih =>
    rw [lastType_cons]
    exact ih h.2

/-- No step is of a type that only continues another one. -/
theorem plain (h : StepsAttested src keywords last (before ++ step :: after))
    (hlast : ∀ type, last = some type → type.isConjunction = false) :
    step.type.isConjunction = false := by
  induction before generalizing last with
  | nil => exact h.1.plain hlast
  | cons first rest ih =>
    apply ih h.2
    intro type htype
    rw [Option.some.injEq] at htype
    exact htype ▸ h.1.plain hlast

theorem typedBehind (h : StepsAttested src keywords none (before ++ step :: after))
    (hsettled : keywords.Settled) : step.TypedBehind keywords before := by
  obtain ⟨raw, found, -, hfound, hkeyword, htype, -⟩ := h.attested.line
  rw [Option.or_none] at htype
  have hleads := hsettled.leads_iff hfound
  have hnoleads : found.keyword ≠ neutralWord → leads '*' found.spelling = false := by
    intro hne
    rwa [Ne, ← hleads, Bool.not_eq_true] at hne
  constructor
  · exact ⟨found.type, hkeyword ▸ Keywords.mem_stepWords_of_step? hfound⟩
  · intro hne type hplain hword
    rw [hkeyword] at hne hword
    have hfoundType := hsettled.type_eq hfound hne hword
    rw [StepMatch.resolve_of_not_leads (hnoleads hne), hfoundType, hplain] at htype
    exact (Option.some.inj htype).symm
  · intro hneutral
    rw [hkeyword] at hneutral
    have hcontext := hsettled.type_of_neutral hfound hneutral
    cases hlast : before.getLast? with
    | none =>
      rcases StepMatch.resolve_cases htype with hsame | ⟨hsame, -⟩
      · simp [hlast] at hsame
      · exact hsame.symm.trans hcontext
    | some last =>
      simp only [hlast, StepMatch.resolve, hleads.mpr hneutral, Option.map_some,
        Option.isSome_some, Bool.and_self, if_true, Option.some.injEq] at htype
      exact htype.symm
  · intro hne type hconjunction hword
    rw [hkeyword] at hne hword
    have hfoundType := hsettled.type_eq hfound hne hword
    rw [StepMatch.resolve_of_not_leads (hnoleads hne), hfoundType, hconjunction,
      if_pos rfl, Option.map_eq_some_iff] at htype
    obtain ⟨last, hlast, hsame⟩ := htype
    exact ⟨last, hlast, hsame.symm⟩
  · exact h.plain (by simp)

end StepsAttested

/-! ## 2. A conjunction without a step before it -/

theorem Refuses.step_of_noPreviousStep {s : Session} {raw : Text} {kind : LineKind}
    {cause : Cause} (h : Refuses s raw kind cause) (hcause : cause = .noPreviousStep) :
    kind = .step ∧ ∃ found, s.keywords.step? (trim raw) = some found ∧
      found.resolve s.lastType = none := by
  cases h with
  | step hfits hunresolved => exact ⟨rfl, _, hfits, hunresolved⟩
  | _ => simp [Session.unexpected, Session.failure] at hcause

namespace Session

variable {s : Session} {raw : Text}

/-- The line is a conjunction where steps may stand, and the open statement has
    no step. -/
structure LacksPrevious (s : Session) (raw : Text) : Prop where
  stage : s.mode.stage ∈ [.background, .scenario, .steps, .table]
  conjunction : ∃ found, s.keywords.step? (trim raw) = some found ∧
    found.type.isConjunction = true
  steps : ∃ statement, s.statement = some statement ∧ statement.steps = []

/-- A step line is not blank, no comment, no row and no fence. -/
theorem plain_of_step? {keywords : Keywords} (hsettled : keywords.Settled) {found : StepMatch}
    (h : keywords.step? (trim raw) = some found) :
    trim raw ≠ [] ∧ leads '#' (trim raw) = false ∧ leads '|' (trim raw) = false ∧
      Fence.open? (trimStart raw) = none := by
  obtain ⟨c, hc, hsign⟩ := hsettled.head_not_mem_signs h
  obtain ⟨rest, hrest⟩ := List.head?_eq_some_iff.mp hc
  obtain ⟨blanks, hblanks, -⟩ := exists_blanks_trimEnd (trimStart raw)
  have hstart : trimStart raw = c :: (rest ++ blanks) := by
    rw [hblanks, show trimEnd (trimStart raw) = trim raw from rfl, hrest]
    rfl
  simp only [signs, List.mem_cons, List.not_mem_nil, or_false, not_or] at hsign
  obtain ⟨-, hcomment, hrow, hdouble, hsingle⟩ := hsign
  refine ⟨by simp [hrest], by simpa [leads, hrest] using hcomment,
    by simpa [leads, hrest] using hrow, ?_⟩
  rw [hstart]
  simp [Fence.open?, Fence.mark, after?, Ne.symm hdouble, Ne.symm hsingle]

/-- Leaving a table adds no step. -/
theorem steps_attach_eq_nil_iff (mode : Mode) (statement : Statement) :
    (mode.attach statement).steps = [] ↔ statement.steps = [] := by
  cases mode <;> simp [Mode.attach]

theorem lastType_eq_none_iff {statement : Statement} :
    statement.lastType = none ↔ statement.steps = [] := by
  simp [Statement.lastType]

/-- A step line faces the session behind the table that it ends. -/
theorem facing_of_step? {found : StepMatch} (hsettled : s.keywords.Settled)
    (h : s.keywords.step? (trim raw) = some found) :
    (s.facing raw).mode = s.mode.left ∧
      (s.facing raw).statement = s.statement.map s.mode.attach := by
  rw [facing_eq_closeTable fun _ => (plain_of_step? hsettled h).2.2.1, closeTable_eq]
  exact ⟨rfl, rfl⟩

/-- There is no previous step exactly for a conjunction in a statement without
    steps. -/
theorem feed_noPreviousStep_iff (hsound : s.Sound) (hsettled : s.keywords.Settled) :
    (∃ failure, s.feed raw = .error failure ∧ failure.cause = .noPreviousStep) ↔
      s.LacksPrevious raw := by
  have hfaced := hsound.facing raw
  constructor
  · rintro ⟨failure, hfeed, hcause⟩
    rcases feed_error_cases hfeed with ⟨-, code, rfl⟩ |
      ⟨-, -, ⟨-, rfl⟩ | ⟨kind, cause, hkind, hrefuses, rfl⟩⟩
    · cases hcause
    · cases hcause
    · obtain ⟨rfl, found, hfound, hunresolved⟩ := hrefuses.step_of_noPreviousStep hcause
      rw [facing_keywords] at hfound
      obtain ⟨hlast, hconjunction⟩ := StepMatch.resolve_eq_none_iff.mp hunresolved
      obtain ⟨hleft, hattach⟩ := facing_of_step? hsettled hfound
      have hmode : (s.facing raw).mode.hasStepLines = true :=
        LineKind.mode_of_mem_kinds (List.mem_of_find?_eq_some hkind)
      obtain ⟨-, statement, hstatement⟩ := hfaced.mode.stepLines hmode
      rw [hfaced.lastType, hstatement] at hlast
      have hsteps := lastType_eq_none_iff.mp hlast
      rw [hattach] at hstatement
      obtain ⟨old, hold, rfl⟩ := Option.map_eq_some_iff.mp hstatement
      refine ⟨?_, ⟨found, hfound, hconjunction⟩,
        ⟨old, hold, (steps_attach_eq_nil_iff _ _).mp hsteps⟩⟩
      rw [hleft] at hmode
      cases hs : s.mode <;> simp_all [Mode.left, Mode.hasStepLines, Mode.stage]
  · rintro ⟨hstage, ⟨found, hfound, hconjunction⟩, statement, hstatement, hsteps⟩
    obtain ⟨hvisible, hcomment, -, hfence⟩ := plain_of_step? hsettled hfound
    obtain ⟨hleft, hattach⟩ := facing_of_step? hsettled hfound
    have hlast : (s.facing raw).lastType = none := by
      rw [hfaced.lastType, hattach, hstatement]
      exact lastType_eq_none_iff.mpr ((steps_attach_eq_nil_iff _ _).mpr hsteps)
    have hfits : (s.facing raw).keywords.step? (trim raw) = some found := by
      rw [facing_keywords, hfound]
    have hmode : s.mode.left = .background ∨ s.mode.left = .scenario ∨ s.mode.left = .steps := by
      cases hs : s.mode <;> simp_all [Mode.left, Mode.stage]
    have hkind : (s.facing raw).kind? raw = some .step := by
      rw [kind?_eq, hleft]
      rcases hmode with hmode | hmode | hmode <;>
        simp [hmode, Mode.kinds, LineKind.fits, hfits, hfence]
    refine ⟨_, feed_of_refuses (by simp [skips, hvisible]) (by simp [isComment, hcomment]) hkind
      (.step hfits ?_), rfl⟩
    exact StepMatch.resolve_eq_none_iff.mpr ⟨hlast, hconjunction⟩

/-- The keywords in force are those of a language of the catalogue. -/
theorem exists_lookup_of_feedAll {parser : Parser} {entry : Entry} {source : Option Text}
    {raws : List Text} {t : Session} (hsession : parser.session entry source = .ok s)
    (hfeed : s.feedAll raws = .ok t) :
    ∃ code, parser.catalogue.lookup code = some t.keywords := by
  -- Nothing has to be known about the lines.
  have hattested : t.Attested fun _ _ => True :=
    (Parser.attested_of_session _ hsession).feedAll (.of_session hsession)
      (fun _ _ _ => trivial) hfeed
  have hcatalogue : t.catalogue = parser.catalogue := by
    obtain ⟨standard, -, -, rfl⟩ := session_eq_ok_iff.mp hsession
    exact (feedAll_setup hfeed).catalogue
  exact ⟨t.language.code, hcatalogue ▸ (find?_code hattested.language).2⟩

end Session

/-! ## 3. Parsers -/

theorem Group.BodyAttested.steps {src : Source} {keywords : Keywords} {group : Group}
    (h : group.BodyAttested src keywords) {statement : Statement}
    (hstatement : statement ∈ group.statements) :
    StepsAttested src keywords none statement.steps := by
  rcases List.mem_append.mp hstatement with hmem | hmem
  · obtain ⟨node, hnode, rfl⟩ := List.mem_map.mp hmem
    exact (h.background node (Option.mem_toList.mp hnode)).2.steps
  · obtain ⟨node, hnode, rfl⟩ := List.mem_map.mp hmem
    exact (h.scenarios node hnode).2.steps

namespace Parser

/-- The steps of every statement of a feature are typed by their keywords and
    the steps before them, and reading a feature fails for want of a previous
    step exactly at a conjunction in a statement without steps. -/
theorem feature_typesSteps {parser : Parser} (hcatalogue : parser.catalogue = Builtin.catalogue)
    (text : Text) (source : Option Text) :
    (∀ feature, parser.feature text source = .ok (some feature) →
      ∃ keywords, Builtin.catalogue.lookup feature.language = some keywords ∧
        ∀ group ∈ feature.groups, ∀ statement ∈ group.statements, ∀ before step after,
          statement.steps = before ++ step :: after → step.TypedBehind keywords before) ∧
    ∀ line,
      (∃ failure, parser.feature text source = .error failure ∧
        failure.cause = .noPreviousStep ∧ failure.position.line = line) ↔
      ∃ s before raw after t, parser.session .feature source = .ok s ∧
        lines text = before ++ raw :: after ∧ line = before.length + 1 ∧
        s.feedAll before = .ok t ∧ t.LacksPrevious raw := by
  constructor
  · intro feature h
    obtain ⟨keywords, hlookup, hattested, -⟩ := attested_of_feature h
    rw [hcatalogue] at hlookup
    refine ⟨keywords, hlookup, ?_⟩
    intro group hgroup statement hstatement before step after hsteps
    have hattestedSteps := (hattested.group hgroup).steps hstatement
    rw [hsteps] at hattestedSteps
    exact hattestedSteps.typedBehind (Builtin.settled hlookup)
  · intro line
    have hiff : ∀ {s t : Session} {raws : List Text} {raw : Text},
        parser.session .feature source = .ok s → s.feedAll raws = .ok t →
        ((∃ failure, t.feed raw = .error failure ∧ failure.cause = .noPreviousStep) ↔
          t.LacksPrevious raw) := by
      intro s t raws raw hsession hfeed
      obtain ⟨code, hlookup⟩ := Session.exists_lookup_of_feedAll hsession hfeed
      rw [hcatalogue] at hlookup
      exact Session.feed_noPreviousStep_iff ((Session.Sound.of_session hsession).feedAll hfeed)
        (Builtin.settled hlookup)
    constructor
    · rintro ⟨failure, h, hcause, hline⟩
      have hfails : parser.FailsWith .feature text source failure := h
      obtain ⟨s, before, raw, after, t, hsession, hlines, hbefore, hraw, hposition⟩ :=
        (failsWith_iff_feed (by simp [hcause])).mp hfails
      exact ⟨s, before, raw, after, t, hsession, hlines, hline.symm.trans hposition, hbefore,
        (hiff hsession hbefore).mp ⟨failure, hraw, hcause⟩⟩
    · rintro ⟨s, before, raw, after, t, hsession, hlines, rfl, hbefore, hlacks⟩
      obtain ⟨failure, hraw, hcause⟩ := (hiff hsession hbefore).mpr hlacks
      have hposition : failure.position.line = before.length + 1 := by
        rw [(Session.feed_error hraw).1, Session.feedAll_line hbefore,
          (line_of_session hsession).1, Nat.zero_add]
      have hfails : parser.FailsWith .feature text source failure :=
        (failsWith_iff_feed (by simp [hcause])).mpr
          ⟨s, before, raw, after, t, hsession, hlines, hbefore, hraw, hposition⟩
      exact ⟨failure, hfails, hcause, hposition⟩

/-- For instance with neutral keywords, a conjunction behind an Examples block,
    and a conjunction behind one that has nothing to continue. -/
theorem feature_typesSteps_examples :
    ∃ feature keywords,
      standard.feature
          "Feature: F\nBackground:\n* a\nWhen b\n* c\nScenario Outline: S\nThen d\nExamples:\n| x |\nAnd e".toList
          none = .ok (some feature) ∧
        feature.steps.map (·.type) = [.context, .action, .action, .outcome, .outcome] ∧
        (∀ group ∈ feature.groups, ∀ statement ∈ group.statements, ∀ before step after,
          statement.steps = before ++ step :: after → step.TypedBehind keywords before) ∧
        ∃ s before raw after t, standard.session .feature none = .ok s ∧
          lines "Feature: F\nScenario Outline: S\nExamples:\n| x |\nBut e".toList =
            before ++ raw :: after ∧
          5 = before.length + 1 ∧ s.feedAll before = .ok t ∧ t.LacksPrevious raw := by
  have hread : ∃ feature,
      standard.feature
          "Feature: F\nBackground:\n* a\nWhen b\n* c\nScenario Outline: S\nThen d\nExamples:\n| x |\nAnd e".toList
          none = .ok (some feature) ∧
        feature.steps.map (·.type) = [.context, .action, .action, .outcome, .outcome] :=
    ⟨_, rfl, rfl⟩
  obtain ⟨feature, hfeature, htypes⟩ := hread
  obtain ⟨keywords, -, htyped⟩ := (feature_typesSteps rfl _ none).1 feature hfeature
  refine ⟨feature, keywords, hfeature, htypes, htyped, ?_⟩
  exact ((feature_typesSteps rfl _ none).2 5).mp ⟨_, rfl, rfl, rfl⟩

end Parser

end Gherkin
