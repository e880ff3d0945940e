/-
  Gherkin/Proofs/Session/IdleLines.lean
  =====================================
  **Blank lines and comments only take up numbers.**

  Outside a docstring a blank line is skipped, and a comment that is no language
  directive does nothing either: in every mode such a line is counted and that is
  all (`feed_idle`).  The lines behind it are then read under numbers that are
  greater by one, and a reading commutes with a renumbering, so the same tree or
  the same failure comes out on renumbered lines (`Parser.feature_insert_idle`).

  The nodes in front of the inserted line keep their numbers because they have
  been read from lines in front of it.  This needs no invariant about the nodes:
  a renumbering that leaves the lines of a reading alone leaves the session behind
  it alone (`renumberFrom_eq_self`).
-/
import Gherkin.Proofs.Session.Locality
import Gherkin.Proofs.Session.Renumbering
import Gherkin.Proofs.Tree.Nodes

namespace Gherkin

open Text

/-! ## 1. Idle lines -/

def isRemark (raw : Text) : Bool := (trim raw).isEmpty || leads '#' (trim raw)

/-- The line is blank, or it is a comment without a language directive. -/
def IdleLine (raw : Text) : Prop :=
  trim raw = [] ∨ leads '#' (trim raw) = true ∧ directive? (trim raw) = none

theorem isRemark_eq_true_iff {raw : Text} :
    isRemark raw = true ↔ trim raw = [] ∨ leads '#' (trim raw) = true := by
  simp [isRemark]

theorem IdleLine.isRemark {raw : Text} (h : IdleLine raw) : isRemark raw = true :=
  isRemark_eq_true_iff.mpr (h.imp_right And.left)

theorem IdleLine.directive?_eq_none {raw : Text} (h : IdleLine raw) : directive? (trim raw) = none := by
  rcases h with hblank | ⟨-, hplain⟩
  · rw [hblank]
    rfl
  · exact hplain

/-- The numbers after the first `count` ones go up by one. -/
def shiftBehind (count line : Nat) : Nat := if count < line then line + 1 else line

theorem shiftBehind_of_le {count line : Nat} (h : line ≤ count) : shiftBehind count line = line :=
  if_neg (by omega)

theorem shiftBehind_of_lt {count line : Nat} (h : count < line) :
    shiftBehind count line = line + 1 :=
  if_pos h

namespace Session

variable {s t : Session} {raw : Text} {before : List Text}

/-- A blank line is counted, and so is a comment that changes nothing else. -/
theorem feed_of_remark (hdoc : s.inDocstring = false) (hremark : isRemark raw = true)
    (hcomment : (s.enter raw).comment raw = .ok (s.enter raw)) :
    s.feed raw = .ok { s with line := s.line + 1 } := by
  have hidle : s.skips raw = true ∨ s.isComment raw = true := by
    rcases isRemark_eq_true_iff.mp hremark with hblank | hlead
    · exact .inl (by simp [skips, hdoc, hblank])
    · exact .inr (by simp [isComment, hdoc, hlead])
  have henter : s.enter raw = { s with line := s.line + 1 } := by
    rcases hidle with hidle | hidle <;> simp [Session.enter, consults, hidle]
  rw [feed_eq, hcomment, henter]
  rcases hidle with hidle | hidle <;> simp [hidle]

/-- A blank line or a comment that is not heeded as a directive is counted. -/
theorem feed_of_quiet (hdoc : s.inDocstring = false) (hremark : isRemark raw = true)
    (hquiet : s.directive? raw = none) : s.feed raw = .ok { s with line := s.line + 1 } := by
  apply feed_of_remark hdoc hremark
  have hnone : (s.enter raw).directive? raw = none := hquiet
  rw [comment, hnone]

/-- Where the caller has chosen the language, no directive is heeded. -/
theorem feed_of_fixed (hdoc : s.inDocstring = false) (hremark : isRemark raw = true)
    (hfixed : s.fixed = true) : s.feed raw = .ok { s with line := s.line + 1 } := by
  apply feed_of_remark hdoc hremark
  have hkept : (s.enter raw).fixed = true := hfixed
  unfold comment
  split
  · rfl
  · rw [if_pos hkept]

theorem directive?_eq_none (h : Gherkin.directive? (trim raw) = none) :
    s.directive? raw = none := by
  unfold Session.directive?
  rw [h, ite_self]

theorem feed_idle (hdoc : s.inDocstring = false) (hidle : IdleLine raw) :
    s.feed raw = .ok { s with line := s.line + 1 } :=
  feed_of_quiet hdoc hidle.isRemark (directive?_eq_none hidle.directive?_eq_none)

/-- Any other line is content and goes to the readers. -/
theorem feed_of_content (hcontent : isRemark raw = false) :
    s.feed raw = (s.facing raw).read raw := by
  simp only [isRemark, Bool.or_eq_false_iff] at hcontent
  have hskips : s.skips raw = false := by simp [skips, hcontent.1]
  have hcomment : s.isComment raw = false := by simp [isComment, hcontent.2]
  rw [feed_eq, hskips, hcomment]
  rfl

/-! ## 2. One line more -/

/-- A renumbering that keeps the numbers of the lines of a reading keeps the
    session behind them. -/
theorem renumberFrom_eq_self {r : Nat → Nat} (hfresh : s.renumberFrom r s.line = s)
    (hfeed : s.feedAll before = .ok t) (hr : ∀ n < before.length, r (s.line + n + 1) = s.line + n + 1)
    (line : Nat) : t.renumberFrom r line = { t with line := line } := by
  have hkept := feedAll_renumberFrom before hr
  rw [hfresh, hfeed] at hkept
  have hsame : t = t.renumberFrom r (s.line + before.length) := by
    simpa [Except.map, Except.mapError] using hkept
  conv_rhs => rw [hsame]
  rfl

theorem feedAll_insert_idle (hline : s.line = 0)
    (hfresh : s.renumberFrom (shiftBehind before.length) 0 = s)
    (hfeed : s.feedAll before = .ok t) (hcount : t.line = before.length)
    (hdoc : t.inDocstring = false) (hidle : IdleLine raw) (after : List Text) :
    s.feedAll (before ++ raw :: after) =
      ((s.feedAll (before ++ after)).map
        (·.renumberFrom (shiftBehind before.length) (before.length + 1 + after.length))).mapError
          (·.renumber (shiftBehind before.length)) := by
  have hinserted : { t with line := t.line + 1 } =
      t.renumberFrom (shiftBehind before.length) (before.length + 1) := by
    rw [hcount, renumberFrom_eq_self (hline ▸ hfresh) hfeed]
    intro n hn
    exact shiftBehind_of_le (by omega)
  rw [feedAll_append, feedAll_append, hfeed]
  change t.feedAll (raw :: after) = _
  rw [feedAll_cons, feed_idle hdoc hidle]
  change Session.feedAll { t with line := t.line + 1 } after = _
  rw [hinserted]
  apply feedAll_renumberFrom
  intro n hn
  rw [hcount, shiftBehind_of_lt (by omega)]
  omega

end Session

/-! ## 3. Parsers -/

namespace Parser

variable {parser : Parser} {text : Text} {source : Option Text} {s : Session}

theorem feature_eq_map (hsession : parser.session .feature source = .ok s) (text : Text) :
    parser.feature text source = (s.feedAll (lines text)).map (·.finishFeature) := by
  unfold Parser.feature Parser.read
  rw [hsession]
  rfl

/-- A blank line or a comment that is inserted where no docstring is open changes
    nothing but the numbers of the lines behind it, whether the text can be read
    or not. -/
theorem feature_insert_idle {longer raw : Text} {before after : List Text} {t : Session}
    (hsession : parser.session .feature source = .ok s) (hbefore : s.feedAll before = .ok t)
    (hdoc : t.inDocstring = false) (hidle : IdleLine raw)
    (htext : lines text = before ++ after) (hlonger : lines longer = before ++ raw :: after) :
    parser.feature longer source =
      ((parser.feature text source).map
        (·.map (·.renumber (shiftBehind before.length)))).mapError
          (·.renumber (shiftBehind before.length)) := by
  obtain ⟨standard, -, -, hs⟩ := Session.session_eq_ok_iff.mp hsession
  have hline : s.line = 0 := by rw [hs]; rfl
  have hcount : t.line = before.length := by
    have := Session.feedAll_line hbefore
    omega
  have hfresh : s.renumberFrom (shiftBehind before.length) 0 = s := by
    rw [hs]
    rfl
  rw [feature_eq_map hsession, feature_eq_map hsession, hlonger, htext,
    Session.feedAll_insert_idle hline hfresh hbefore hcount hdoc hidle]
  cases s.feedAll (before ++ after) with
  | error failure => rfl
  | ok u =>
    simp only [Except.map, Except.mapError]
    rw [Session.finishFeature_renumberFrom]

/-- For instance a comment between the rows of a table. -/
theorem feature_insert_idle_table :
    ∃ text longer f g, standard.feature text none = .ok (some f) ∧
      standard.feature longer none = .ok (some g) ∧
      f.tables.map (·.rows.map (·.line)) = [[6, 7]] ∧
      g.tables.map (·.rows.map (·.line)) = [[6, 8]] ∧ g = f.renumber (shiftBehind 6) := by
  have hread : ∃ f g s t,
      standard.feature "Feature: F\n@t\nScenario: S\nGiven a:\n| x |\n| y |\n| z |".toList none =
          .ok (some f) ∧
        standard.feature
          "Feature: F\n@t\nScenario: S\nGiven a:\n| x |\n| y |\n  # note\n| z |".toList none =
          .ok (some g) ∧
        f.tables.map (·.rows.map (·.line)) = [[6, 7]] ∧
        g.tables.map (·.rows.map (·.line)) = [[6, 8]] ∧
        standard.session .feature none = .ok s ∧
        s.feedAll (Builtin.texts
          ["Feature: F", "@t", "Scenario: S", "Given a:", "| x |", "| y |"]) = .ok t ∧
        t.inDocstring = false := ⟨_, _, _, _, rfl, rfl, rfl, rfl, rfl, rfl, rfl⟩
  obtain ⟨f, g, s, t, hf, hg, hshort, hlong, hsession, hbefore, hdoc⟩ := hread
  have hidle : IdleLine "  # note".toList := .inr ⟨rfl, rfl⟩
  have htext : lines "Feature: F\n@t\nScenario: S\nGiven a:\n| x |\n| y |\n| z |".toList =
      Builtin.texts ["Feature: F", "@t", "Scenario: S", "Given a:", "| x |", "| y |"] ++
        ["| z |".toList] := rfl
  have hlonger :
      lines "Feature: F\n@t\nScenario: S\nGiven a:\n| x |\n| y |\n  # note\n| z |".toList =
        Builtin.texts ["Feature: F", "@t", "Scenario: S", "Given a:", "| x |", "| y |"] ++
          "  # note".toList :: ["| z |".toList] := rfl
  have hinsert := feature_insert_idle hsession hbefore hdoc hidle htext hlonger
  rw [hf, hg] at hinsert
  refine ⟨_, _, f, g, hf, hg, hshort, hlong, ?_⟩
  simpa [Except.map, Except.mapError, Builtin.texts] using hinsert

end Parser

end Gherkin
