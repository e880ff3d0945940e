/-
  Gherkin/Proofs/Session/Fragments.lean
  =====================================
  **Fragments are read as they are read in a feature.**

  The body of a rule, and a list of steps, can be read on their own.  What comes
  out is what the same lines give below a feature header and the header of a rule
  or a scenario, with every line two lines further down.  A body that fails also
  fails there, unless it fails at the header of another rule, which a feature may
  go on with.
-/
import Gherkin.Proofs.Answers
import Gherkin.Proofs.Session.Renumbering
import Gherkin.Proofs.Session.StepsFragment
import Gherkin.Proofs.Text.Cutting

namespace Gherkin

open Text

/-! ## 1. Below two headers -/

namespace Session

/-- A session before the first line is sound whatever its lines are called. -/
theorem Sound.opening_renumberFrom (entry : Entry) (catalogue : Catalogue) (source : Option Text)
    (standard : Language) (chosen : Option Language) (r : Nat → Nat) (line : Nat) :
    ((Session.opening entry catalogue source standard chosen).renumberFrom r line).Sound := by
  constructor
  · cases entry <;>
      simp [Session.opening, Entry.mode, renumberFrom, Session.renumber, Mode.renumber, ModeFits,
        FreshGroup, group?, Group.start, Group.renumber]
  · cases entry <;>
      simp [Session.opening, Entry.mode, renumberFrom, Session.renumber, Mode.renumber, EntryFits,
        Statement.renumber, Scenario.renumber, Statement.isScenario, Statement.blocks?]
  · cases entry <;>
      simp [Session.opening, renumberFrom, Session.renumber, Statement.renumber,
        Scenario.renumber, Statement.lastType, Statement.steps]
  · cases entry <;>
      simp [Session.opening, renumberFrom, Session.renumber, Statement.renumber,
        Statement.isScenario]

end Session

namespace Parser

def english : Language := ⟨"en".toList, Builtin.english⟩

def opening (entry : Entry) (source : Option Text) : Session :=
  Session.opening entry Builtin.catalogue source english none

theorem session_standard (entry : Entry) (source : Option Text) :
    standard.session entry source = .ok (opening entry source) := by
  cases entry <;> rfl

/-- A feature of which only the header has been read. -/
def host (source : Option Text) : Feature :=
  ⟨source, "en".toList, .start ⟨"Feature".toList, "F".toList, 1⟩ [], []⟩

def ruleHeader : Header := ⟨"Rule".toList, "R".toList, 2⟩

def scenarioHeader : Header := ⟨"Scenario".toList, "S".toList, 2⟩

variable {text : Text} {source : Option Text}

theorem feedAll_ruleHeader (source : Option Text) :
    (opening .feature source).feedAll ["Feature: F".toList, "Rule: R".toList] =
      .ok (((opening .rule source).renumberFrom (· + 2) 2).inFeature (host source) ruleHeader) :=
  rfl

theorem feedAll_scenarioHeader (source : Option Text) :
    (opening .feature source).feedAll ["Feature: F".toList, "Scenario: S".toList] =
      .ok (((opening .steps source).renumberFrom (· + 2) 2).inScenario (host source)
        scenarioHeader .scenario) :=
  rfl

theorem feedAll_shifted (entry : Entry) (text : Text) (source : Option Text) :
    ((opening entry source).renumberFrom (· + 2) 2).feedAll (lines text) =
      (((opening entry source).feedAll (lines text)).map
        (·.renumberFrom (· + 2) (2 + (lines text).length))).mapError (·.renumber (· + 2)) := by
  apply Session.feedAll_renumberFrom
  intro n hn
  have hline : (opening entry source).line = 0 := rfl
  rw [hline]
  omega

/-! ## 2. The body of a rule -/

theorem feature_below_ruleHeader (text : Text) (source : Option Text) :
    standard.feature ("Feature: F\nRule: R\n".toList ++ text) source =
      ((((opening .rule source).renumberFrom (· + 2) 2).inFeature (host source)
        ruleHeader).feedAll (lines text)).map (·.finishFeature) := by
  have hlines : lines ("Feature: F\nRule: R\n".toList ++ text) =
      ["Feature: F".toList, "Rule: R".toList] ++ lines text := rfl
  unfold Parser.feature Parser.read
  rw [session_standard, hlines]
  simp only [bind, Except.bind]
  rw [Session.feedAll_append, feedAll_ruleHeader]
  rfl

theorem rule_eq_map (text : Text) (source : Option Text) :
    standard.rule text source =
      ((opening .rule source).feedAll (lines text)).map (·.finishRule) := by
  unfold Parser.rule Parser.read
  rw [session_standard]
  rfl

/-- Failures without their reasons. -/
theorem feedAll_below_ruleHeader
    (hplain : ∀ failure line, standard.rule text source = .error failure →
      failure.position.text = some line → Builtin.english.isHeader .rule line = false) :
    ((((opening .rule source).renumberFrom (· + 2) 2).inFeature (host source)
        ruleHeader).feedAll (lines text)).mapError (·.withoutReason) =
      ((((opening .rule source).feedAll (lines text)).map fun t =>
        (t.renumberFrom (· + 2) (2 + (lines text).length)).inFeature (host source)
          ruleHeader).mapError (·.renumber (· + 2))).mapError (·.withoutReason) := by
  have hsound : ((opening .rule source).renumberFrom (· + 2) 2).Sound :=
    Session.Sound.opening_renumberFrom .rule Builtin.catalogue source english none (· + 2) 2
  have hbody : ((((opening .rule source).renumberFrom (· + 2) 2).inFeature (host source)
      ruleHeader).feedAll (lines text)).mapError (·.withoutReason) =
      ((((opening .rule source).renumberFrom (· + 2) 2).feedAll (lines text)).map
        (·.inFeature (host source) ruleHeader)).mapError (·.withoutReason) := by
    apply Session.feedAll_inFeature hsound rfl
    intro failure line hfails htext
    rw [feedAll_shifted] at hfails
    cases hread : (opening .rule source).feedAll (lines text) with
    | ok t => simp [hread, Except.map, Except.mapError] at hfails
    | error original =>
      have hsame : original.renumber (· + 2) = failure := by
        simpa [hread, Except.map, Except.mapError] using hfails
      apply hplain original line
      · rw [rule_eq_map, hread]
        rfl
      · rw [← hsame] at htext
        exact htext
  rw [hbody, feedAll_shifted]
  cases (opening .rule source).feedAll (lines text) <;> rfl

theorem feature_of_rule {rule : Group} (h : standard.rule text source = .ok rule) :
    standard.feature ("Feature: F\nRule: R\n".toList ++ text) source =
      .ok (some { host source with rules := [(rule.renumber (· + 2)).withHeader ruleHeader] }) := by
  have hplain : ∀ failure line, standard.rule text source = .error failure →
      failure.position.text = some line → Builtin.english.isHeader .rule line = false := by
    intro failure line hfails
    simp [h] at hfails
  have hbody := feedAll_below_ruleHeader hplain
  rw [rule_eq_map] at h
  rw [feature_below_ruleHeader]
  cases hread : (opening .rule source).feedAll (lines text) with
  | error failure => simp [hread, Except.map] at h
  | ok t =>
    obtain rfl : t.finishRule = rule := by simpa [hread, Except.map] using h
    rw [hread] at hbody
    have hsetup := Session.feedAll_setup hread
    obtain ⟨-, -, hrule⟩ := ((Session.Sound.opening .rule Builtin.catalogue source english
      none).feedAll hread).of_rule hsetup.entry
    have hshifted : (t.renumberFrom (· + 2) (2 + (lines text).length)).rule.isSome = true := by
      simpa [Session.renumberFrom, Session.renumber] using hrule
    rw [mapError_eq_ok_iff.mp hbody, Except.map, Session.finishFeature_inFeature hshifted,
      Session.finishRule_renumberFrom t _ hrule]
    rfl

theorem feature_of_rule_error {failure : Failure} (h : standard.rule text source = .error failure)
    (hplain : ∀ line, failure.position.text = some line →
      Builtin.english.isHeader .rule line = false) :
    ∃ failure', standard.feature ("Feature: F\nRule: R\n".toList ++ text) source =
        .error failure' ∧
      failure'.position = { failure.position with line := failure.position.line + 2 } ∧
      failure'.cause.withoutReason = failure.cause.withoutReason := by
  have hplain' : ∀ other line, standard.rule text source = .error other →
      other.position.text = some line → Builtin.english.isHeader .rule line = false := by
    intro other line hother
    obtain rfl : failure = other := by simpa [h] using hother
    exact hplain line
  have hbody := feedAll_below_ruleHeader hplain'
  rw [rule_eq_map] at h
  rw [feature_below_ruleHeader]
  cases hread : (opening .rule source).feedAll (lines text) with
  | ok t => simp [hread, Except.map] at h
  | error other =>
    obtain rfl : other = failure := by simpa [hread, Except.map] using h
    rw [hread] at hbody
    obtain ⟨failure', hfails, hsame⟩ := mapError_eq_error_iff.mp hbody
    refine ⟨failure', by rw [hfails]; rfl, ?_, ?_⟩
    · exact congrArg (·.position) hsame
    · exact congrArg (·.cause) hsame

/-! ## 3. Steps -/

theorem feature_below_scenarioHeader (text : Text) (source : Option Text) :
    standard.feature ("Feature: F\nScenario: S\n".toList ++ text) source =
      ((((opening .steps source).renumberFrom (· + 2) 2).inScenario (host source)
        scenarioHeader .scenario).feedAll (lines text)).map (·.finishFeature) := by
  have hlines : lines ("Feature: F\nScenario: S\n".toList ++ text) =
      ["Feature: F".toList, "Scenario: S".toList] ++ lines text := rfl
  unfold Parser.feature Parser.read
  rw [session_standard, hlines]
  simp only [bind, Except.bind]
  rw [Session.feedAll_append, feedAll_scenarioHeader]
  rfl

theorem feature_of_steps {steps : List Step} (h : standard.steps text source = .ok steps) :
    standard.feature ("Feature: F\nScenario: S\n".toList ++ text) source =
      .ok (some { host source with
        top := (host source).top.close
          (.scenario ⟨scenarioHeader, [], [], steps.map (·.renumber (· + 2)), none⟩) }) := by
  have hsteps : standard.steps text source =
      ((opening .steps source).feedAll (lines text)).map (·.finishSteps) := by
    unfold Parser.steps Parser.read
    rw [session_standard]
    rfl
  rw [hsteps] at h
  rw [feature_below_scenarioHeader]
  cases hread : (opening .steps source).feedAll (lines text) with
  | error failure => simp [hread, Except.map] at h
  | ok t =>
    obtain rfl : t.finishSteps = steps := by simpa [hread, Except.map] using h
    have hshifted := feedAll_shifted .steps text source
    rw [hread] at hshifted
    have hbare : ((opening .steps source).renumberFrom (· + 2) 2).StepsOnly :=
      ⟨Session.Sound.opening_renumberFrom .steps Builtin.catalogue source english none _ _, rfl,
        ⟨Mode.noConfusion, Mode.noConfusion⟩, _, rfl, _, [], rfl⟩
    -- The one session expects steps and the other may still see a description.
    have hrelated : Session.InScenario (host source) scenarioHeader
        ((opening .steps source).renumberFrom (· + 2) 2)
        (((opening .steps source).renumberFrom (· + 2) 2).inScenario (host source)
          scenarioHeader .scenario) := .unstepped rfl rfl
    obtain ⟨v, hv, hrelated, hbare⟩ := hrelated.feedAll hbare hshifted
    rw [hv, Except.map, hrelated.finishFeature hbare, Session.finishSteps_renumberFrom]

/-! ## 4. All fragments -/

/-- A fragment is read as the same lines are read in a feature: the body of a
    rule that can be read, one that fails at a line which is not the header of
    another rule, and steps. -/
theorem feature_of_fragment (text : Text) (source : Option Text) :
    (∀ rule, standard.rule text source = .ok rule →
      standard.feature ("Feature: F\nRule: R\n".toList ++ text) source =
        .ok (some { host source with
          rules := [(rule.renumber (· + 2)).withHeader ruleHeader] })) ∧
    (∀ failure, standard.rule text source = .error failure →
      (∀ line, failure.position.text = some line →
        Builtin.english.isHeader .rule line = false) →
      ∃ failure', standard.feature ("Feature: F\nRule: R\n".toList ++ text) source =
          .error failure' ∧
        failure'.position = { failure.position with line := failure.position.line + 2 } ∧
        failure'.cause.withoutReason = failure.cause.withoutReason) ∧
    (∀ steps, standard.steps text source = .ok steps →
      standard.feature ("Feature: F\nScenario: S\n".toList ++ text) source =
        .ok (some { host source with
          top := { (host source).top with
            scenarios :=
              [⟨scenarioHeader, [], [], steps.map (·.renumber (· + 2)), none⟩] } })) := by
  refine ⟨?_, ?_, ?_⟩
  · intro rule hrule
    exact feature_of_rule hrule
  · intro failure hfails hplain
    exact feature_of_rule_error hfails hplain
  · intro steps hsteps
    exact feature_of_steps hsteps

/-- For instance a body with a background and an outline, a body with the header
    of a feature in it, and steps with a table behind a comment. -/
theorem feature_of_fragment_all :
    (∃ text rule, standard.rule text none = .ok rule ∧ rule.scenarios.length = 1 ∧
      standard.feature ("Feature: F\nRule: R\n".toList ++ text) none =
        .ok (some { host none with
          rules := [(rule.renumber (· + 2)).withHeader ruleHeader] })) ∧
    (∃ text failure failure', standard.rule text none = .error failure ∧
      standard.feature ("Feature: F\nRule: R\n".toList ++ text) none = .error failure' ∧
      failure.position.line = 3 ∧ failure'.position.line = 5) ∧
    (∃ text steps, standard.steps text none = .ok steps ∧ steps.map (·.line) = [2, 4] ∧
      standard.feature ("Feature: F\nScenario: S\n".toList ++ text) none =
        .ok (some { host none with
          top := { (host none).top with
            scenarios :=
              [⟨scenarioHeader, [], [], steps.map (·.renumber (· + 2)), none⟩] } })) := by
  refine ⟨?_, ?_, ?_⟩
  · have hread : ∃ rule,
        standard.rule
            "Text\nBackground:\nGiven a\n@t\nScenario Outline: O\nExamples:\n| x |".toList none =
          .ok rule ∧ rule.scenarios.length = 1 := ⟨_, rfl, rfl⟩
    obtain ⟨rule, hrule, hscenarios⟩ := hread
    exact ⟨_, rule, hrule, hscenarios, (feature_of_fragment _ none).1 rule hrule⟩
  · have hread : ∃ failure,
        standard.rule "Scenario: T\nGiven a\n Feature: G".toList none = .error failure ∧
          failure.position = ⟨3, some "Feature: G".toList, none⟩ := ⟨_, rfl, rfl⟩
    obtain ⟨failure, hfails, hposition⟩ := hread
    obtain ⟨failure', hfeature, hshifted, -⟩ := (feature_of_fragment _ none).2.1 failure hfails (by
      intro line hline
      obtain rfl : "Feature: G".toList = line := by simpa [hposition] using hline
      rfl)
    refine ⟨_, failure, failure', hfails, hfeature, by rw [hposition], ?_⟩
    rw [hshifted, hposition]
  · have hread : ∃ steps,
        standard.steps "# note\nGiven a:\n| x |\n* b\n@t".toList none = .ok steps ∧
          steps.map (·.line) = [2, 4] := ⟨_, rfl, rfl⟩
    obtain ⟨steps, hsteps, hlines⟩ := hread
    exact ⟨_, steps, hsteps, hlines, (feature_of_fragment _ none).2.2 steps hsteps⟩

end Parser

end Gherkin
