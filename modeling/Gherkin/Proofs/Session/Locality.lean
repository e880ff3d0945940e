/-
  Gherkin/Proofs/Session/Locality.lean
  ====================================
  **A failure depends on nothing behind it.**

  A reading stops at the first line that fails, and what it reports names that
  line (`feedAll_error`).  No line is looked at before its turn and the end of a
  text cannot fail, so a failure is the same for every text that begins with the
  lines up to it (`feedAll_error_iff`).

  `Parser.failsWith_firstLines` says this for the three things that a parser
  reads.
-/
import Gherkin.Proofs.Answers
import Gherkin.Proofs.Session.Coherence
import Gherkin.Proofs.Session.Refusal
import Gherkin.Proofs.Text.Cutting

namespace Gherkin

open Text

/-! ## 1. Where a reading fails -/

/-- A failure of reading the given lines names one of them, quotes it without
    the blanks at its ends, and does not name a blank one. -/
structure Failure.Blames (raws : List Text) (source : Option Text) (failure : Failure) : Prop where
  first : 1 ≤ failure.position.line
  last : failure.position.line ≤ raws.length
  line : ∃ raw, raws[failure.position.line - 1]? = some raw ∧
    failure.position.text = some (trim raw) ∧ trim raw ≠ []
  source : failure.position.source = source

namespace Session

variable {s t : Session} {raws : List Text} {failure : Failure}

theorem feedAll_line (h : s.feedAll raws = .ok t) : t.line = s.line + raws.length := by
  have hcount := feedAll_induction
    (P := fun u rest => u.line + rest.length = s.line + raws.length) h rfl (by
      intro u raw rest next hu hnext
      have hline := (feed_setup hnext).2
      simp only [List.length_cons] at hu
      omega)
  simpa using hcount

/-- A reading fails at the first line that fails. -/
theorem feedAll_eq_error_iff :
    s.feedAll raws = .error failure ↔
      ∃ before raw after t, raws = before ++ raw :: after ∧ s.feedAll before = .ok t ∧
        t.feed raw = .error failure :=
  foldlM_eq_error_iff

theorem feedAll_error (h : s.feedAll raws = .error failure) :
    ∃ before raw after, raws = before ++ raw :: after ∧
      failure.position = ⟨s.line + before.length + 1, some (trim raw), s.source⟩ ∧
      trim raw ≠ [] := by
  obtain ⟨before, raw, after, t, hraws, hbefore, hraw⟩ := feedAll_eq_error_iff.mp h
  obtain ⟨hposition, hvisible⟩ := feed_error hraw
  rw [feedAll_line hbefore, (feedAll_setup hbefore).source] at hposition
  exact ⟨before, raw, after, hraws, hposition, hvisible⟩

theorem blames_of_feedAll (hline : s.line = 0) (h : s.feedAll raws = .error failure) :
    failure.Blames raws s.source := by
  obtain ⟨before, raw, after, rfl, hposition, hvisible⟩ := feedAll_error h
  rw [hline] at hposition
  constructor
  · rw [hposition]
    simp
  · rw [hposition]
    simp only [List.length_append, List.length_cons]
    omega
  · refine ⟨raw, ?_, by rw [hposition], hvisible⟩
    simp [hposition]
  · rw [hposition]

/-- Lines that are added at the end change nothing about a failure in front of
    them. -/
theorem feedAll_error_iff (s : Session) (raws more : List Text) (failure : Failure) :
    s.feedAll raws = .error failure ↔
      s.feedAll (raws ++ more) = .error failure ∧
        failure.position.line ≤ s.line + raws.length := by
  rw [feedAll_append]
  cases hraws : s.feedAll raws with
  | error other =>
    constructor
    · intro h
      obtain ⟨before, raw, after, rfl, hposition, -⟩ := feedAll_error (hraws.trans h)
      refine ⟨h, ?_⟩
      rw [hposition]
      simp only [List.length_append, List.length_cons]
      omega
    · exact And.left
  | ok t =>
    constructor
    · simp
    · rintro ⟨h, hle⟩
      -- What fails behind these lines has a greater number.
      obtain ⟨before, raw, after, -, hposition, -⟩ := feedAll_error (s := t) h
      have hline := feedAll_line hraws
      rw [hposition] at hle
      simp only at hle
      omega

end Session

/-! ## 2. Parsers -/

namespace Parser

variable {parser : Parser} {entry : Entry} {text : Text} {source : Option Text}
  {failure : Failure}

/-- Reading a text as a feature, as the body of a rule or as steps fails. -/
def FailsWith (parser : Parser) (entry : Entry) (text : Text) (source : Option Text)
    (failure : Failure) : Prop :=
  match entry with
  | .feature => parser.feature text source = .error failure
  | .rule => parser.rule text source = .error failure
  | .steps => parser.steps text source = .error failure

theorem failsWith_iff_read :
    parser.FailsWith entry text source failure ↔
      parser.read entry text source = .error failure := by
  cases entry <;> exact map_eq_error_iff

theorem failsWith_iff_of_session {s : Session} (h : parser.session entry source = .ok s) :
    parser.FailsWith entry text source failure ↔ s.feedAll (lines text) = .error failure := by
  rw [failsWith_iff_read, Parser.read, h]
  rfl

theorem failsWith_iff_of_session_error {other : Failure}
    (h : parser.session entry source = .error other) :
    parser.FailsWith entry text source failure ↔ other = failure := by
  rw [failsWith_iff_read, Parser.read, h]
  exact Except.error.injEq other failure ▸ Iff.rfl

/-- A parser cannot begin for want of a language. -/
theorem eq_of_session_error (h : parser.session entry source = .error failure) :
    ∃ code, failure = ⟨.unknownLanguage code, .whole source⟩ := by
  have hfind : ∀ code, parser.find source code = .error failure →
      failure = ⟨.unknownLanguage code, .whole source⟩ := by
    intro code hcode
    unfold Parser.find at hcode
    split at hcode
    · simp at hcode
    · rw [Except.error.injEq] at hcode
      exact hcode.symm
  unfold Parser.session at h
  cases hstandard : parser.find source parser.catalogue.standard with
  | error other =>
    have hsame : other = failure := by simpa [hstandard, bind, Except.bind] using h
    exact ⟨_, hfind _ (hsame ▸ hstandard)⟩
  | ok standard =>
    cases hlanguage : parser.language with
    | none => simp [hstandard, hlanguage, bind, Except.bind, pure, Except.pure] at h
    | some code =>
      cases hcode : parser.find source code with
      | error other =>
        have hsame : other = failure := by
          simpa [hstandard, hlanguage, hcode, bind, Except.bind, Except.map] using h
        exact ⟨code, hfind _ (hsame ▸ hcode)⟩
      | ok language =>
        simp [hstandard, hlanguage, hcode, bind, Except.bind, Except.map, pure, Except.pure] at h

/-- A parser that cannot even begin blames no line. -/
theorem line_of_session_error (h : parser.session entry source = .error failure) :
    failure.position.line = 0 := by
  obtain ⟨code, rfl⟩ := eq_of_session_error h
  rfl

theorem line_of_session {s : Session} (h : parser.session entry source = .ok s) :
    s.line = 0 ∧ s.source = source := by
  obtain ⟨standard, -, -, rfl⟩ := Session.session_eq_ok_iff.mp h
  exact ⟨rfl, rfl⟩

/-- What a session makes of a line after the lines before it decides where the
    text fails. -/
theorem failsWith_iff_feed (hcause : ∀ code, failure.cause ≠ .unknownLanguage code) :
    parser.FailsWith entry text source failure ↔
      ∃ s before raw after t, parser.session entry source = .ok s ∧
        lines text = before ++ raw :: after ∧ s.feedAll before = .ok t ∧
        t.feed raw = .error failure ∧ failure.position.line = before.length + 1 := by
  cases hsession : parser.session entry source with
  | error other =>
    rw [failsWith_iff_of_session_error hsession]
    refine ⟨?_, by simp⟩
    rintro rfl
    obtain ⟨code, rfl⟩ := eq_of_session_error hsession
    exact absurd rfl (hcause code)
  | ok s =>
    rw [failsWith_iff_of_session hsession, Session.feedAll_eq_error_iff]
    constructor
    · rintro ⟨before, raw, after, t, hlines, hbefore, hraw⟩
      refine ⟨s, before, raw, after, t, rfl, hlines, hbefore, hraw, ?_⟩
      rw [(Session.feed_error hraw).1, Session.feedAll_line hbefore, (line_of_session hsession).1,
        Nat.zero_add]
    · rintro ⟨u, before, raw, after, t, hu, hlines, hbefore, hraw, -⟩
      obtain rfl := Except.ok.inj hu
      exact ⟨before, raw, after, t, hlines, hbefore, hraw⟩

/-- The first lines of a text fail exactly as the whole text does, if it fails
    in them.  A failure that blames a line blames one of the text and quotes
    it. -/
theorem failsWith_firstLines (parser : Parser) (entry : Entry) (text : Text)
    (source : Option Text) (failure : Failure) {count : Nat} (hcount : 1 ≤ count) :
    (parser.FailsWith entry (firstLines count text) source failure ↔
      parser.FailsWith entry text source failure ∧ failure.position.line ≤ count) ∧
    (parser.FailsWith entry text source failure → 1 ≤ failure.position.line →
      failure.Blames (lines text) source) := by
  cases hsession : parser.session entry source with
  | error other =>
    have hzero := line_of_session_error hsession
    rw [failsWith_iff_of_session_error hsession, failsWith_iff_of_session_error hsession]
    refine ⟨⟨fun hsame => ⟨hsame, ?_⟩, And.left⟩, fun hsame hone => ?_⟩
    · rw [← hsame, hzero]
      omega
    · rw [← hsame, hzero] at hone
      omega
  | ok s =>
    obtain ⟨hline, hsource⟩ := line_of_session hsession
    have hblames : s.feedAll (lines text) = .error failure →
        failure.Blames (lines text) source := by
      intro h
      exact hsource ▸ Session.blames_of_feedAll hline h
    have hcut := s.feedAll_error_iff ((lines text).take count) ((lines text).drop count) failure
    rw [List.take_append_drop, hline, Nat.zero_add, List.length_take] at hcut
    rw [failsWith_iff_of_session hsession, failsWith_iff_of_session hsession,
      lines_firstLines hcount, hcut]
    refine ⟨and_congr_right fun h => ?_, fun h _ => hblames h⟩
    have hlast := (hblames h).last
    omega

/-- For instance where a docstring fails in the middle: the lines before that do
    not fail, and neither does the end of the text behind them. -/
theorem failsWith_firstLines_docstring :
    ∃ text failure, standard.FailsWith .feature text none failure ∧
      failure.position.line = 5 ∧ failure.cause = .badIndent " x".toList ∧
      standard.FailsWith .feature (firstLines 5 text) none failure ∧
      ¬standard.FailsWith .feature (firstLines 4 text) none failure ∧
      failure.Blames (lines text) none := by
  have hread : ∃ failure,
      standard.FailsWith .feature
          "Feature: F\nScenario: S\nGiven a\n  \"\"\"\n x\n  \"\"\"".toList none failure ∧
        failure.position.line = 5 ∧ failure.cause = .badIndent " x".toList := ⟨_, rfl, rfl, rfl⟩
  obtain ⟨failure, hfails, hline, hcause⟩ := hread
  have hfive := failsWith_firstLines standard .feature
    "Feature: F\nScenario: S\nGiven a\n  \"\"\"\n x\n  \"\"\"".toList
    none failure (show 1 ≤ 5 by omega)
  have hfour := failsWith_firstLines standard .feature
    "Feature: F\nScenario: S\nGiven a\n  \"\"\"\n x\n  \"\"\"".toList
    none failure (show 1 ≤ 4 by omega)
  refine ⟨_, failure, hfails, hline, hcause, ?_, ?_, ?_⟩
  · exact hfive.1.mpr ⟨hfails, by omega⟩
  · intro hshort
    have := (hfour.1.mp hshort).2
    omega
  · exact hfive.2 hfails (by omega)

end Parser

end Gherkin
