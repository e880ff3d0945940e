/-
  Gherkin/Proofs/Session/WellFormed.lean
  ======================================
  **Every tree that is read is well formed.**

  Whichever way a text is read, and whatever the keywords are, what comes out can
  be relied on: features, bodies of rules and lists of steps are well formed
  (`Parser.wellFormed_of_read`).  All of it follows from where the nodes stand in
  the text, except for the header of the body of a rule, which stands nowhere: it
  is the empty one that reading began with.
-/
import Gherkin.Proofs.Session.Faithfulness
import Gherkin.Proofs.Session.RuleFragment
import Gherkin.Proofs.Tree.WellFormed

namespace Gherkin

open Text

namespace Session

variable {s t : Session} {raw : Text} {kind : LineKind}

/-! ## 1. The header of the open rule -/

theorem rule_header_closeStatement (s : Session) :
    s.closeStatement.rule.map (·.header) = s.rule.map (·.header) := by
  rw [closeStatement_eq, Option.map_map]
  exact congrArg (Option.map · s.rule) (funext fun group => group.header_closeAll s.statement)

/-- Without a feature no line is the header of a rule. -/
theorem takes_rule_header (hfeature : s.feature = none) (h : Takes s raw kind t) :
    t.rule.map (·.header) = s.rule.map (·.header) := by
  cases h with
  | rule hs hfits hsome => simp [hfeature] at hsome
  | scenario hs hknown hfits hgroup => exact rule_header_closeStatement s
  | background hs hfits htags hfresh => exact rule_header_closeStatement s
  | groupDescription hs htagless hplain =>
    rw [mapGroup_eq, Option.map_map]
    rfl
  | _ => rfl

theorem feed_rule_header (hsound : s.Sound) (hentry : s.entry = .rule)
    (h : s.feed raw = .ok t) : t.rule.map (·.header) = s.rule.map (·.header) := by
  rcases feed_cases h with ⟨-, chosen, rfl, -⟩ | ⟨-, -, kind, -, htakes⟩
  · rfl
  · have hfeature := ((hsound.facing raw).of_rule ((facing_setup s raw).entry.trans hentry)).2.1
    rw [takes_rule_header hfeature htakes]
    apply facing_cases (P := fun u => u.rule.map (·.header) = s.rule.map (·.header))
    · rfl
    · rw [closeTable_eq]
      rfl

/-- The body of a rule has the header that its reading began with. -/
theorem feedAll_rule_header {raws : List Text} (hsound : s.Sound) (hentry : s.entry = .rule)
    (h : s.feedAll raws = .ok t) : t.rule.map (·.header) = s.rule.map (·.header) := by
  let P (u : Session) (_ : List Text) : Prop :=
    u.Sound ∧ u.entry = .rule ∧ u.rule.map (·.header) = s.rule.map (·.header)
  have hP : P t [] := by
    refine feedAll_induction (P := P) h ⟨hsound, hentry, rfl⟩ ?_
    rintro u raw rest next ⟨hu, hrule, hsame⟩ hnext
    exact ⟨hu.feed hnext, (feed_setup hnext).1.entry.trans hrule,
      (feed_rule_header hu hrule hnext).trans hsame⟩
  exact hP.2.2

/-! ## 2. The end of the text -/

variable {src : Source}

theorem Attested.finishRule_wellFormed (hsrc : ∀ n raw, src n raw → SingleLine raw)
    (h : s.Attested src) (hentry : s.entry = .rule)
    (hheader : ∀ rule, s.rule = some rule → rule.header.WellFormed) :
    s.finishRule.WellFormed := by
  have htable : s.closeTable.entry = .rule := s.closeTable_setup.entry.trans hentry
  have hclosed := h.closeTable.closeStatement (by rw [htable]; simp)
  have hsame : s.closeTable.closeStatement.rule.map (·.header) = s.rule.map (·.header) := by
    rw [rule_header_closeStatement, closeTable_eq]
  unfold finishRule
  cases hrule : s.closeTable.closeStatement.rule with
  | none => exact Group.start_wellFormed
  | some rule =>
    rw [hrule, Option.map_some] at hsame
    obtain ⟨old, hold, hkept⟩ := Option.map_eq_some_iff.mp hsame.symm
    exact (hclosed.rule rule hrule).1.wellFormed hsrc (hkept ▸ hheader old hold)

theorem Attested.finishSteps_wellFormed (hsrc : ∀ n raw, src n raw → SingleLine raw)
    (h : s.Attested src) : ∀ step ∈ s.finishSteps, step.WellFormed := by
  unfold finishSteps
  cases hstatement : s.closeTable.statement with
  | none => simp
  | some statement =>
    have hbody := (h.closeTable.statement statement hstatement).1
    cases statement with
    | background node => exact hbody.steps.wellFormed hsrc
    | scenario node => exact hbody.steps.wellFormed hsrc

end Session

namespace Parser

/-! ## 3. Every reading -/

theorem singleLine_of_ofLines {text raw : Text} {n : Nat}
    (h : Source.ofLines (lines text) n raw) : SingleLine raw :=
  singleLine_of_mem_lines (List.mem_of_getElem? h.2)

/-- What comes out of a reading is well formed, whatever the text and the keywords
    are: as a feature, as the body of a rule and as a list of steps. -/
theorem wellFormed_of_read (parser : Parser) (text : Text) (source : Option Text) :
    (∀ feature, parser.feature text source = .ok (some feature) → feature.WellFormed) ∧
    (∀ rule, parser.rule text source = .ok rule → rule.WellFormed) ∧
    (∀ steps, parser.steps text source = .ok steps → ∀ step ∈ steps, step.WellFormed) := by
  have hsrc : ∀ n raw, Source.ofLines (lines text) n raw → SingleLine raw :=
    fun n raw => singleLine_of_ofLines
  refine ⟨?_, ?_, ?_⟩
  · intro feature h
    obtain ⟨keywords, -, hattested, -⟩ := attested_of_feature h
    exact hattested.wellFormed hsrc
  · intro rule h
    obtain ⟨t, hread, rfl⟩ := map_eq_ok h
    obtain ⟨s, hsession, hfeed⟩ := read_eq_ok hread
    obtain ⟨standard, -, -, hs⟩ := Session.session_eq_ok_iff.mp hsession
    have hentry : s.entry = .rule := by rw [hs]; rfl
    have hheader := Session.feedAll_rule_header (.of_session hsession) hentry hfeed
    have hattested := attested_of_feedAll hsession hfeed
    have hrule : t.entry = .rule := (Session.feedAll_setup hfeed).entry.trans hentry
    apply hattested.finishRule_wellFormed hsrc hrule
    intro group hgroup
    rw [hgroup, hs] at hheader
    have habsent : group.header = .absent := Option.some.inj hheader
    exact habsent ▸ Header.absent_wellFormed
  · intro steps h
    obtain ⟨t, hread, rfl⟩ := map_eq_ok h
    obtain ⟨s, hsession, hfeed⟩ := read_eq_ok hread
    exact (attested_of_feedAll hsession hfeed).finishSteps_wellFormed hsrc

/-- For instance with blanks around everything that is cut out of a line. -/
theorem wellFormed_of_read_blanks :
    ∃ (feature : Feature) (rule : Group) (steps : List Step),
      standard.feature "@t\nFeature:  F \n d \nScenario: S\n* b :\n|x | y\n|z||".toList none =
          .ok (some feature) ∧
        standard.rule " d \nScenario:  S \n* a ".toList none = .ok rule ∧
        standard.steps "* a \n* b:\n'''\nc \n'''".toList none = .ok steps ∧
        feature.tables.map (·.grid.map (·.length)) = [[2, 2]] ∧
        rule.scenarios.map (·.header.title) = ["S".toList] ∧
        steps.map (·.docstring.map (·.value)) = [none, some "c".toList] ∧
        feature.WellFormed ∧ rule.WellFormed ∧ ∀ step ∈ steps, step.WellFormed := by
  have hread : ∃ (feature : Feature) (rule : Group) (steps : List Step),
      standard.feature "@t\nFeature:  F \n d \nScenario: S\n* b :\n|x | y\n|z||".toList none =
          .ok (some feature) ∧
        standard.rule " d \nScenario:  S \n* a ".toList none = .ok rule ∧
        standard.steps "* a \n* b:\n'''\nc \n'''".toList none = .ok steps ∧
        feature.tables.map (·.grid.map (·.length)) = [[2, 2]] ∧
        rule.scenarios.map (·.header.title) = ["S".toList] ∧
        steps.map (·.docstring.map (·.value)) = [none, some "c".toList] :=
    ⟨_, _, _, rfl, rfl, rfl, rfl, rfl, rfl⟩
  obtain ⟨feature, rule, steps, hfeature, hrule, hsteps, htables, htitles, hvalues⟩ := hread
  refine ⟨feature, rule, steps, hfeature, hrule, hsteps, htables, htitles, hvalues, ?_, ?_, ?_⟩
  · exact (wellFormed_of_read _ _ _).1 feature hfeature
  · exact (wellFormed_of_read _ _ _).2.1 rule hrule
  · exact (wellFormed_of_read _ _ _).2.2 steps hsteps

end Parser

end Gherkin
