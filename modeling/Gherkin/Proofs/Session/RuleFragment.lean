/-
  Gherkin/Proofs/Session/RuleFragment.lean
  ========================================
  **The body of a rule, read on its own and in a feature.**

  A session that reads the body of a rule has no feature, and its rule has no
  header.  `Session.inFeature` is the same session with both filled in.  The two
  take the same lines in the same way, with one exception: the header of another
  rule is refused in the body of a rule.  Apart from that, they differ only in
  how they explain a line that does not fit (`feedAll_inFeature`).
-/
import Gherkin.Proofs.Session.Coherence
import Gherkin.Proofs.Session.Refusal

namespace Gherkin

open Text

/-! ## 1. Failures without their reasons -/

def Cause.withoutReason : Cause → Cause
  | .unexpectedLine stage _ => .unexpectedLine stage none
  | cause => cause

def Failure.withoutReason (failure : Failure) : Failure :=
  { failure with cause := failure.cause.withoutReason }

/-! ## 2. A session in a feature -/

def Group.withHeader (group : Group) (header : Header) : Group := { group with header := header }

namespace Session

/-- The session whose rule has the given header and stands in the given
    feature. -/
def inFeature (s : Session) (host : Feature) (header : Header) : Session :=
  { s with
    entry := .feature
    chosen := some s.language
    feature := some host
    rule := s.rule.map (·.withHeader header) }

variable {s : Session} {host : Feature} {header : Header}

theorem group?_inFeature (hrule : s.rule.isSome = true) :
    (s.inFeature host header).group? = s.group?.map (·.withHeader header) := by
  obtain ⟨rule, hrule⟩ := Option.isSome_iff_exists.mp hrule
  simp [group?, inFeature, hrule]

theorem closeStatement_inFeature (hrule : s.rule.isSome = true) :
    (s.inFeature host header).closeStatement = s.closeStatement.inFeature host header := by
  obtain ⟨rule, hrule⟩ := Option.isSome_iff_exists.mp hrule
  have hclose : ∀ statement, (rule.withHeader header).closeAll statement =
      (rule.closeAll statement).withHeader header := by
    intro statement
    rcases statement with _ | ⟨node⟩ | ⟨node⟩ <;> rfl
  rw [closeStatement_eq, closeStatement_eq]
  simp [inFeature, hrule, hclose]
  rfl

theorem mapGroup_inFeature (hrule : s.rule.isSome = true) {f : Group → Group}
    (hf : ∀ group, f (group.withHeader header) = (f group).withHeader header) :
    (s.inFeature host header).mapGroup f = (s.mapGroup f).inFeature host header := by
  obtain ⟨rule, hrule⟩ := Option.isSome_iff_exists.mp hrule
  rw [mapGroup_eq, mapGroup_eq]
  simp [inFeature, hrule, hf]
  rfl

theorem closeTable_inFeature :
    (s.inFeature host header).closeTable = s.closeTable.inFeature host header := by
  rw [closeTable_eq, closeTable_eq]
  rfl

end Session

/-! ## 3. One line -/

section Lines

variable {s t : Session} {host : Feature} {header : Header} {raw : Text} {kind : LineKind}

/-- What is taken in the body of a rule is taken in a feature. -/
theorem Takes.inFeature (hrule : s.rule.isSome = true) (hfeature : s.feature = none)
    (hstart : s.mode ≠ .start) (h : Takes s raw kind t) :
    Takes (s.inFeature host header) raw kind (t.inFeature host header) := by
  have hgroup : (s.inFeature host header).group? = s.group?.map (·.withHeader header) :=
    Session.group?_inFeature hrule
  cases h with
  | tags hs hlead hrow => exact .tags hs hlead hrow
  | feature hs hfits => exact absurd hs hstart
  | rule hs hfits hsome => simp [hfeature] at hsome
  | scenario hs hknown hfits hsome =>
    have htakes := Takes.scenario (s := s.inFeature host header) hs hknown hfits
      (by rw [hgroup, Option.isSome_map]; exact hsome)
    rw [Session.startStatement_eq, Session.closeStatement_inFeature hrule] at htakes
    exact htakes
  | examples hs hfits houtline => exact .examples hs hfits houtline
  | background hs hfits htags hfresh =>
    have htakes := Takes.background (s := s.inFeature host header) hs hfits htags (by
      rw [hgroup]
      cases hs : s.group? with
      | none => rfl
      | some group => simpa [hs, Group.withHeader] using hfresh)
    rw [Session.startStatement_eq, Session.closeStatement_inFeature hrule] at htakes
    exact htakes
  | groupDescription hs htagless hplain =>
    have htakes := Takes.groupDescription (s := s.inFeature host header) hs htagless hplain
    rw [Session.mapGroup_inFeature hrule fun _ => rfl] at htakes
    exact htakes
  | statementDescription hs htagless hstepless hplain =>
    exact .statementDescription hs htagless hstepless hplain
  | step hs hfits hresolved => exact .step hs hfits hresolved
  | fence hs hfits hsteps => exact .fence hs hfits hsteps
  | closingFence hs hcloses => exact .closingFence hs hcloses
  | docstring hs hinside hpush => exact .docstring hs hinside hpush
  | firstRow hs hlead hsteps => exact .firstRow hs hlead hsteps
  | examplesHeadings hs => exact .examplesHeadings hs
  | examplesRow hs hpush => exact .examplesRow hs hpush
  | nextRow hs hpush => exact .nextRow hs hpush

theorem Refuses.inFeature {cause : Cause} (hrule : s.rule.isSome = true) (hkind : kind ≠ .rule)
    (h : Refuses s raw kind cause) : Refuses (s.inFeature host header) raw kind cause := by
  have hgroup : (s.inFeature host header).group? = s.group?.map (·.withHeader header) :=
    Session.group?_inFeature hrule
  cases h with
  | tags hlead hrow => exact .tags hlead hrow
  | rule hfits hfeature => exact absurd rfl hkind
  | scenario hfits hnone =>
    obtain ⟨rule, hrule⟩ := Option.isSome_iff_exists.mp hrule
    simp [Session.group?, hrule] at hnone
  | examples hfits houtline => exact .examples hfits houtline
  | taggedBackground hfits htags => exact .taggedBackground hfits htags
  | secondBackground hfits htags hsteps =>
    refine .secondBackground hfits htags ?_
    rw [hgroup]
    cases hs : s.group? with
    | none => simp [hs] at hsteps
    | some group => simpa [hs, Group.withHeader] using hsteps
  | repeatedBackground hbackground hsteps hfits =>
    exact .repeatedBackground hbackground hsteps hfits
  | step hfits hunresolved => exact .step hfits hunresolved
  | fence hfits hsteps => exact .fence hfits hsteps
  | docstring hinside hpush => exact .docstring hinside hpush
  | firstRow hlead hsteps => exact .firstRow hlead hsteps
  | examplesRow hpush => exact .examplesRow hpush
  | nextRow hpush => exact .nextRow hpush

namespace Session

theorem kind?_inFeature (hrule : s.rule.isSome = true) :
    (s.inFeature host header).kind? raw = s.kind? raw := by
  have hfits : LineKind.fits (s.inFeature host header) raw = LineKind.fits s raw := by
    funext kind
    cases kind with
    | groupDescription =>
      simp [LineKind.fits, group?_inFeature hrule]
    | _ => rfl
  rw [kind?_eq, kind?_eq, hfits]
  rfl

/-- The two answers to a line: the same session in its feature, or the same
    failure but for its reason. -/
theorem read_inFeature (hrule : s.rule.isSome = true) (hfeature : s.feature = none)
    (hstart : s.mode ≠ .start)
    (hplain : ∀ failure, s.read raw = .error failure →
      s.keywords.isHeader .rule (trim raw) = false) :
    ((s.inFeature host header).read raw).mapError (·.withoutReason) =
      ((s.read raw).map (·.inFeature host header)).mapError (·.withoutReason) := by
  have hsame : (s.inFeature host header).kind? raw = s.kind? raw := kind?_inFeature hrule
  rcases read_cases s raw with
    ⟨hnone, hread⟩ | ⟨kind, hsome, ⟨t, htakes, hread⟩ | ⟨cause, hrefuses, hread⟩⟩
  · rw [hread, read_of_unrecognised (hsame.trans hnone)]
    rfl
  · rw [hread, read_of_takes (hsame.trans hsome) (htakes.inFeature hrule hfeature hstart)]
    rfl
  · -- The one refusal that does not carry over is that of another rule.
    have hother : kind ≠ .rule := by
      rintro rfl
      have hheader : s.keywords.isHeader .rule (trim raw) = true := fits_of_kind? hsome
      rw [hplain _ hread] at hheader
      exact Bool.noConfusion hheader
    rw [hread, read_of_refuses (hsame.trans hsome) (hrefuses.inFeature hrule hother)]
    rfl

theorem enter_inFeature (raw : Text) :
    (s.inFeature host header).enter raw = (s.enter raw).inFeature host header := by
  have hlanguage := enter_language s raw
  unfold Session.inFeature
  rw [hlanguage]
  unfold Session.enter
  split <;> rfl

theorem facing_inFeature (raw : Text) :
    (s.inFeature host header).facing raw = (s.facing raw).inFeature host header := by
  unfold facing leaveTable
  rw [enter_inFeature, closeTable_inFeature]
  split <;> split <;> first | rfl | contradiction

/-- Comments mean nothing behind the head of a text. -/
theorem comment_of_ne_start {s : Session} (hstart : s.mode ≠ .start) (raw : Text) :
    s.comment raw = .ok s := by
  have hnone : s.directive? raw = none := by
    simp [Session.directive?, hstart]
  simp [comment, hnone]

theorem Sound.ne_start {s : Session} (h : s.Sound) (hentry : s.entry ≠ .feature) :
    s.mode ≠ .start := by
  intro hstart
  have hmode := h.mode
  rw [ModeFits, hstart] at hmode
  exact hentry hmode.1

theorem Sound.of_rule {s : Session} (h : s.Sound) (hentry : s.entry = .rule) :
    s.mode ≠ .start ∧ s.feature = none ∧ s.rule.isSome = true := by
  have hfits := h.entry
  rw [EntryFits, hentry] at hfits
  exact ⟨h.ne_start (by simp [hentry]), hfits⟩

theorem feed_inFeature (hsound : s.Sound) (hentry : s.entry = .rule)
    (hplain : ∀ failure, s.feed raw = .error failure →
      s.keywords.isHeader .rule (trim raw) = false) :
    ((s.inFeature host header).feed raw).mapError (·.withoutReason) =
      ((s.feed raw).map (·.inFeature host header)).mapError (·.withoutReason) := by
  have hskips : (s.inFeature host header).skips raw = s.skips raw := rfl
  have hcomment : (s.inFeature host header).isComment raw = s.isComment raw := rfl
  obtain ⟨hstart, -, -⟩ := hsound.of_rule hentry
  obtain ⟨hstart', hfeature, hrule⟩ := (hsound.facing raw).of_rule
    ((facing_setup s raw).entry.trans hentry)
  rw [feed_eq] at hplain
  rw [feed_eq, feed_eq, hskips, hcomment, facing_inFeature, enter_inFeature]
  split
  · rfl
  · rename_i hvisible
    split
    · rw [comment_of_ne_start (s := s.enter raw) hstart,
        comment_of_ne_start (s := (s.enter raw).inFeature host header) hstart]
      rfl
    · rename_i hline
      apply read_inFeature hrule hfeature hstart'
      intro failure hfails
      have hkeywords : (s.facing raw).keywords = s.keywords :=
        congrArg (·.keywords) (facing_language s raw)
      rw [hkeywords]
      apply hplain failure
      rw [if_neg hvisible, if_neg hline]
      exact hfails

/-- Only reading a comment or testing keywords settles on a language. -/
theorem takes_chosen (h : Takes s raw kind t) : t.chosen = s.chosen := by
  cases h with
  | rule hs hfits hfeature =>
    rw [closeStatement_eq, closeRule_eq]
  | scenario hs hknown hfits hgroup =>
    rw [startStatement_eq, closeStatement_eq]
  | background hs hfits htags hfresh =>
    rw [startStatement_eq, closeStatement_eq]
  | groupDescription hs htagless hplain =>
    rw [mapGroup_eq]
  | _ => rfl

theorem takes_language (h : Takes s raw kind t) : t.language = s.language := by
  unfold Session.language
  rw [takes_chosen h, (takes_setup h).1.standard]

/-- Only a directive at the head of a text changes the language. -/
theorem feed_language (hstart : s.mode ≠ .start) (h : s.feed raw = .ok t) :
    t.language = s.language := by
  rcases feed_cases h with ⟨-, chosen, rfl, rfl | ⟨hhead, -⟩⟩ | ⟨-, -, kind, -, htakes⟩
  · rfl
  · exact absurd hhead hstart
  · rw [takes_language htakes, facing_language]

/-! ## 4. Many lines -/

/-- Reading the body of a rule in a feature.  The line that fails, if one does,
    must not be the header of another rule. -/
theorem feedAll_inFeature {raws : List Text} (hsound : s.Sound) (hentry : s.entry = .rule)
    (hplain : ∀ failure line, s.feedAll raws = .error failure →
      failure.position.text = some line → s.keywords.isHeader .rule line = false) :
    ((s.inFeature host header).feedAll raws).mapError (·.withoutReason) =
      ((s.feedAll raws).map (·.inFeature host header)).mapError (·.withoutReason) := by
  induction raws generalizing s with
  | nil => rfl
  | cons raw rest ih =>
    have hfeed : ((s.inFeature host header).feed raw).mapError (·.withoutReason) =
        ((s.feed raw).map (·.inFeature host header)).mapError (·.withoutReason) := by
      apply feed_inFeature hsound hentry
      intro failure hfails
      apply hplain failure
      · rw [feedAll_cons, hfails]
        rfl
      · rw [(feed_error hfails).1]
    rw [feedAll_cons, feedAll_cons]
    cases hnext : s.feed raw with
    | error failure =>
      rw [hnext] at hfeed
      cases hhost : (s.inFeature host header).feed raw with
      | error other =>
        rw [hhost] at hfeed
        exact hfeed
      | ok u => simp [hhost, Except.map, Except.mapError] at hfeed
    | ok next =>
      rw [hnext] at hfeed
      have hhost : (s.inFeature host header).feed raw = .ok (next.inFeature host header) := by
        cases hhost : (s.inFeature host header).feed raw with
        | error other => simp [hhost, Except.map, Except.mapError] at hfeed
        | ok u => simpa [hhost, Except.map, Except.mapError] using hfeed
      obtain ⟨hstart, -, -⟩ := hsound.of_rule hentry
      rw [hhost]
      apply ih (hsound.feed hnext) ((feed_setup hnext).1.entry.trans hentry)
      intro failure line hfails htext
      have hsame : next.keywords = s.keywords :=
        congrArg (·.keywords) (feed_language hstart hnext)
      rw [hsame]
      apply hplain failure line _ htext
      rw [feedAll_cons, hnext]
      exact hfails

theorem finishFeature_inFeature (hrule : s.rule.isSome = true) :
    (s.inFeature host header).finishFeature =
      some { host with rules := host.rules ++ [s.finishRule.withHeader header] } := by
  obtain ⟨rule, hrule'⟩ := Option.isSome_iff_exists.mp hrule
  have hclosed : s.closeTable.rule.isSome = true := by
    rw [closeTable_eq]
    exact hrule
  unfold Session.finishFeature finishRule
  rw [closeTable_inFeature, closeStatement_inFeature hclosed, closeRule_eq, closeStatement_eq,
    closeTable_eq]
  simp [inFeature, hrule']

end Session

end Lines

end Gherkin
