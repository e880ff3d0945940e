/-
  Gherkin/Proofs/Session/LanguageChoice.lean
  ==========================================
  **Which language a text is read in.**

  A text may name its language in comments before its first tag and its first
  header.  The language can also be chosen by the caller, and if nobody chooses
  one the standard language is installed as soon as a line needs keywords.  These
  ways end in the same place: a text is read as the parser fixed to one language
  reads it, namely to the last one that its leading comments name, or else to the
  standard one (`Parser.feature_languageChoice`).

  `Session.settled` is a session as it would be had the caller chosen the language
  in force.  A line that is no heeded directive cannot tell the two apart
  (`feed_settled`), and behind the first tag or the first content no directive is
  heeded any more (`Begun`).
-/
import Gherkin.Proofs.Session.IdleLines
import Gherkin.Proofs.Session.Refusal

namespace Gherkin

open Text

/-! ## 1. Directives at the head of a text -/

/-- The longest run of blank lines and comments at the beginning. -/
def leadingLines (raws : List Text) : List Text := raws.takeWhile isRemark

/-- The languages that directives name, line by line. -/
def namedLanguages (raws : List Text) : List Text := raws.filterMap fun raw => directive? (trim raw)

theorem leadingLines_append (raws : List Text) :
    leadingLines raws ++ raws.dropWhile isRemark = raws :=
  List.takeWhile_append_dropWhile

theorem isRemark_of_mem_leadingLines {raw : Text} {raws : List Text} (h : raw ∈ leadingLines raws) :
    isRemark raw = true :=
  List.mem_takeWhile_imp h

/-- A directive among blank lines and comments is a comment. -/
theorem leads_of_directive? {raw code : Text} (h : isRemark raw = true)
    (hdirective : directive? (trim raw) = some code) : leads '#' (trim raw) = true := by
  rcases isRemark_eq_true_iff.mp h with hblank | hlead
  · have hnone : directive? [] = none := rfl
    rw [hblank, hnone] at hdirective
    exact absurd hdirective (Option.some_ne_none code).symm
  · exact hlead

/-! ## 2. The caller's choice -/

namespace Session

/-- The session in which the language in force has been chosen by the caller. -/
def settled (s : Session) : Session := { s with fixed := true, chosen := some s.language }

/-- A tag or some content has been read. -/
def Begun (s : Session) : Prop := s.mode ≠ .start ∨ s.tags ≠ []

variable {s t : Session} {raw : Text} {kind : LineKind}

theorem closeTable_settled : s.settled.closeTable = s.closeTable.settled := by
  rw [closeTable_eq, closeTable_eq]
  rfl

theorem closeStatement_settled : s.settled.closeStatement = s.closeStatement.settled := by
  rw [closeStatement_eq, closeStatement_eq]
  rfl

theorem closeRule_settled : s.settled.closeRule = s.closeRule.settled := by
  rw [closeRule_eq, closeRule_eq]
  rfl

theorem mapGroup_settled (f : Group → Group) : s.settled.mapGroup f = (s.mapGroup f).settled := by
  rw [mapGroup_eq, mapGroup_eq]
  rfl

theorem finishFeature_settled : s.settled.finishFeature = s.finishFeature := by
  unfold Session.finishFeature
  rw [closeTable_settled, closeStatement_settled, closeRule_settled]
  rfl

end Session

section Readers

variable {s t : Session} {raw : Text} {kind : LineKind}

theorem Takes.settled (h : Takes s raw kind t) : Takes s.settled raw kind t.settled := by
  cases h with
  | tags hs hlead hrow => exact .tags hs hlead hrow
  | feature hs hfits => exact .feature hs hfits
  | rule hs hfits hfeature =>
    have htakes := Takes.rule (s := s.settled) hs hfits hfeature
    rw [Session.closeStatement_settled, Session.closeRule_settled] at htakes
    exact htakes
  | scenario hs hknown hfits hgroup =>
    have htakes := Takes.scenario (s := s.settled) hs hknown hfits hgroup
    rw [Session.startStatement_eq, Session.closeStatement_settled] at htakes
    exact htakes
  | examples hs hfits houtline => exact .examples hs hfits houtline
  | background hs hfits htags hfresh =>
    have htakes := Takes.background (s := s.settled) hs hfits htags hfresh
    rw [Session.startStatement_eq, Session.closeStatement_settled] at htakes
    exact htakes
  | groupDescription hs htagless hplain =>
    have htakes := Takes.groupDescription (s := s.settled) hs htagless hplain
    rw [Session.mapGroup_settled] at htakes
    exact htakes
  | statementDescription hs htagless hstepless hplain =>
    exact .statementDescription hs htagless hstepless hplain
  | step hs hfits hresolved => exact .step hs hfits hresolved
  | fence hs hfits hsteps => exact .fence hs hfits hsteps
  | closingFence hs hcloses => exact .closingFence hs hcloses
  | docstring hs hinside hpush => exact .docstring hs hinside hpush
  | firstRow hs hlead hsteps => exact .firstRow hs hlead hsteps
  | examplesHeadings hs => exact .examplesHeadings hs
  | examplesRow hs hpush => exact .examplesRow hs hpush
  | nextRow hs hpush => exact .nextRow hs hpush

theorem Refuses.settled {cause : Cause} (h : Refuses s raw kind cause) :
    Refuses s.settled raw kind cause := by
  cases h with
  | tags hlead hrow => exact .tags hlead hrow
  | rule hfits hfeature => exact .rule (s := s.settled) hfits hfeature
  | scenario hfits hgroup => exact .scenario (s := s.settled) hfits hgroup
  | examples hfits houtline => exact .examples hfits houtline
  | taggedBackground hfits htags => exact .taggedBackground (s := s.settled) hfits htags
  | secondBackground hfits htags hsteps => exact .secondBackground hfits htags hsteps
  | repeatedBackground hbackground hsteps hfits =>
    exact .repeatedBackground hbackground hsteps hfits
  | step hfits hunresolved => exact .step hfits hunresolved
  | fence hfits hsteps => exact .fence hfits hsteps
  | docstring hinside hpush => exact .docstring hinside hpush
  | firstRow hlead hsteps => exact .firstRow hlead hsteps
  | examplesRow hpush => exact .examplesRow (s := s.settled) hpush
  | nextRow hpush => exact .nextRow (s := s.settled) hpush

end Readers

namespace Session

variable {s t : Session} {raw : Text} {kind : LineKind}

theorem kind?_settled : s.settled.kind? raw = s.kind? raw := by
  have hfits : LineKind.fits s.settled raw = LineKind.fits s raw := by
    funext kind
    cases kind <;> rfl
  rw [kind?_eq, kind?_eq, hfits]
  rfl

theorem read_settled : s.settled.read raw = (s.read raw).map (·.settled) := by
  rcases read_cases s raw with
    ⟨hnone, hread⟩ | ⟨kind, hsome, ⟨t, htakes, hread⟩ | ⟨cause, hrefuses, hread⟩⟩
  · rw [hread, read_of_unrecognised (kind?_settled.trans hnone)]
    rfl
  · rw [hread, read_of_takes (kind?_settled.trans hsome) htakes.settled]
    rfl
  · rw [hread, read_of_refuses (kind?_settled.trans hsome) hrefuses.settled]
    rfl

theorem enter_settled : s.settled.enter raw = (s.enter raw).settled := by
  have hlanguage := enter_language s raw
  unfold Session.settled
  rw [hlanguage]
  unfold Session.enter
  split <;> rfl

theorem facing_settled : s.settled.facing raw = (s.facing raw).settled := by
  unfold facing leaveTable
  rw [enter_settled, closeTable_settled]
  split <;> split <;> first | rfl | contradiction

/-- A line that is no heeded directive cannot tell who chose the language. -/
theorem feed_settled (hquiet : s.directive? raw = none) :
    s.settled.feed raw = (s.feed raw).map (·.settled) := by
  have hskips : s.settled.skips raw = s.skips raw := rfl
  have hcomment : s.settled.isComment raw = s.isComment raw := rfl
  rw [feed_eq, feed_eq, hskips, hcomment, facing_settled, enter_settled]
  split
  · rfl
  · split
    · have hnone : (s.enter raw).directive? raw = none := hquiet
      have hnone' : (s.enter raw).settled.directive? raw = none := hquiet
      rw [comment, comment, hnone, hnone']
      rfl
    · exact read_settled

/-! ## 3. Behind the first tag or content -/

theorem Begun.directive?_eq_none (h : s.Begun) (raw : Text) : s.directive? raw = none := by
  unfold Session.directive?
  rcases h with hmode | htags
  · simp [hmode]
  · simp [htags]

theorem begun_of_takes (h : Takes s raw kind t) : t.Begun := by
  cases h with
  | tags hs hlead hrow =>
    right
    simp [Tag.ne_nil_of_ofLine hlead hrow]
  | groupDescription hs htagless hplain =>
    left
    rw [mapGroup_eq]
    rcases hs with hs | hs <;> simp [hs]
  | statementDescription hs htagless hstepless hplain =>
    left
    rcases hs with hs | hs <;> simp [mapStatement, hs]
  | _ =>
    left
    simp [startStatement]

theorem begun_of_feed (hraw : isRemark raw = false) (h : s.feed raw = .ok t) : t.Begun := by
  rcases feed_cases h with ⟨hidle, -⟩ | ⟨-, -, kind, -, htakes⟩
  · have hremark : isRemark raw = true := by
      rw [isRemark_eq_true_iff]
      simp only [skips, isComment, Bool.or_eq_true, Bool.and_eq_true, List.isEmpty_iff] at hidle
      exact hidle.imp And.right And.right
    rw [hraw] at hremark
    exact absurd hremark Bool.false_ne_true
  · exact begun_of_takes htakes

theorem Begun.feed (hbegun : s.Begun) (h : s.feed raw = .ok t) : t.Begun := by
  rcases feed_cases h with ⟨-, chosen, rfl, -⟩ | ⟨-, -, kind, -, htakes⟩
  · exact hbegun
  · exact begun_of_takes htakes

theorem Begun.feedAll {raws : List Text} (hbegun : s.Begun) (h : s.feedAll raws = .ok t) :
    t.Begun :=
  feedAll_induction (P := fun u _ => u.Begun) h hbegun fun hu hnext => hu.feed hnext

/-- Some line of a reading that is neither blank nor a comment makes it begin. -/
theorem begun_of_feedAll {raws : List Text} (hraw : raw ∈ raws) (hcontent : isRemark raw = false)
    (h : s.feedAll raws = .ok t) : t.Begun := by
  obtain ⟨before, after, rfl⟩ := List.append_of_mem hraw
  obtain ⟨u, -, hmore⟩ := ok_of_feedAll_append h
  obtain ⟨next, hnext, hafter⟩ := ok_of_feedAll_cons hmore
  exact (begun_of_feed hcontent hnext).feedAll hafter

theorem Begun.feedAll_settled (hbegun : s.Begun) (raws : List Text) :
    s.settled.feedAll raws = (s.feedAll raws).map (·.settled) := by
  induction raws generalizing s with
  | nil => rfl
  | cons raw rest ih =>
    rw [feedAll_cons, feedAll_cons, feed_settled (hbegun.directive?_eq_none raw)]
    cases hnext : s.feed raw with
    | error failure => rfl
    | ok next => exact ih (hbegun.feed hnext)

/-- A reading that goes on with content cannot tell who chose the language. -/
theorem feedAll_settled {raws : List Text} (h : ∀ raw ∈ raws.head?, isRemark raw = false) :
    s.settled.feedAll raws = (s.feedAll raws).map (·.settled) := by
  cases raws with
  | nil => rfl
  | cons raw rest =>
    have hcontent : isRemark raw = false := h raw rfl
    have hquiet : s.directive? raw = none := by
      have hlead : leads '#' (trim raw) = false := by
        simp only [isRemark, Bool.or_eq_false_iff] at hcontent
        exact hcontent.2
      simp [Session.directive?, isComment, hlead]
    rw [feedAll_cons, feedAll_cons, feed_settled hquiet]
    cases hnext : s.feed raw with
    | error failure => rfl
    | ok next => exact (begun_of_feed hcontent hnext).feedAll_settled rest

/-! ## 4. In front of it -/

/-- Nothing but blank lines and comments of a feature has been read. -/
structure AtHead (s : Session) : Prop where
  entry : s.entry = .feature
  mode : s.mode = .start
  tags : s.tags = []

theorem AtHead.inDocstring (h : s.AtHead) : s.inDocstring = false := by
  simp [Session.inDocstring, h.mode]

/-- A directive at the head of a text chooses a language of the catalogue, unless
    the caller has chosen. -/
theorem AtHead.feed_directive (h : s.AtHead) {code : Text} (hremark : isRemark raw = true)
    (hcode : Gherkin.directive? (trim raw) = some code) :
    s.feed raw =
      if s.fixed then .ok { s with line := s.line + 1 }
      else
        match s.catalogue.find? code with
        | some language => .ok { s with line := s.line + 1, chosen := some language }
        | none => .error ⟨.unknownLanguage code, s.line + 1, some (trim raw), s.source⟩ := by
  have hlead := leads_of_directive? hremark hcode
  have hskips : s.skips raw = false := by
    cases ht : trim raw with
    | nil => simp [ht, leads] at hlead
    | cons c rest => simp [skips, ht]
  have hcomment : s.isComment raw = true := by simp [isComment, h.inDocstring, hlead]
  have henter : s.enter raw = { s with line := s.line + 1 } := by
    simp [Session.enter, consults, hcomment]
  have hnamed : (s.enter raw).directive? raw = some code := by
    have hcomment' : (s.enter raw).isComment raw = true := hcomment
    have hplace : (s.enter raw).mode = .start ∧ (s.enter raw).tags = [] ∧
        (s.enter raw).entry = .feature := ⟨h.mode, h.tags, h.entry⟩
    simp [Session.directive?, hcomment', hplace, hcode]
  rw [feed_eq, hskips, if_neg Bool.false_ne_true, if_pos hcomment, comment, hnamed, henter]
  rfl

/-- A session in which the caller has chosen counts the lines at the head of a
    text. -/
theorem AtHead.feedAll_fixed {raws : List Text} (h : s.AtHead) (hfixed : s.fixed = true)
    (hlead : ∀ raw ∈ raws, isRemark raw = true) :
    s.feedAll raws = .ok { s with line := s.line + raws.length } := by
  induction raws generalizing s with
  | nil => rfl
  | cons raw rest ih =>
    have hfeed := feed_of_fixed h.inDocstring (hlead raw List.mem_cons_self) hfixed
    have hrest := ih (s := { s with line := s.line + 1 }) ⟨h.entry, h.mode, h.tags⟩ hfixed
      fun other hother => hlead other (List.mem_cons_of_mem _ hother)
    rw [feedAll_cons, hfeed]
    change Session.feedAll { s with line := s.line + 1 } rest = _
    rw [hrest, List.length_cons, Nat.add_assoc, Nat.add_comm 1]

/-- Otherwise the last directive decides, if the catalogue has all the languages
    that are named. -/
theorem AtHead.feedAll_leading {raws : List Text} (h : s.AtHead) (hfree : s.fixed = false)
    (hlead : ∀ raw ∈ raws, isRemark raw = true)
    (hknown : ∀ code ∈ namedLanguages raws, (s.catalogue.lookup code).isSome = true) :
    s.feedAll raws =
      .ok { s with
        line := s.line + raws.length
        chosen := ((namedLanguages raws).getLast?.bind s.catalogue.find?).or s.chosen } := by
  induction raws generalizing s with
  | nil => rfl
  | cons raw rest ih =>
    have hremark := hlead raw List.mem_cons_self
    have hothers : ∀ other ∈ rest, isRemark other = true :=
      fun other hother => hlead other (List.mem_cons_of_mem _ hother)
    rw [feedAll_cons, List.length_cons, Nat.add_comm rest.length, ← Nat.add_assoc]
    cases hcode : Gherkin.directive? (trim raw) with
    | none =>
      have hnames : namedLanguages (raw :: rest) = namedLanguages rest := by
        simp [namedLanguages, hcode]
      have hfeed := feed_of_quiet h.inDocstring hremark (directive?_eq_none hcode)
      rw [hnames] at hknown ⊢
      rw [hfeed]
      exact ih (s := { s with line := s.line + 1 }) ⟨h.entry, h.mode, h.tags⟩ hfree hothers hknown
    | some code =>
      have hnames : namedLanguages (raw :: rest) = code :: namedLanguages rest := by
        simp [namedLanguages, hcode]
      rw [hnames] at hknown ⊢
      obtain ⟨keywords, hlookup⟩ := Option.isSome_iff_exists.mp (hknown code List.mem_cons_self)
      have hfind : s.catalogue.find? code = some ⟨code, keywords⟩ := by
        simp [Catalogue.find?, hlookup]
      have hmore : ∀ other ∈ namedLanguages rest, (s.catalogue.lookup other).isSome = true :=
        fun other hother => hknown other (List.mem_cons_of_mem _ hother)
      have hrest := ih (s := { s with line := s.line + 1, chosen := some ⟨code, keywords⟩ })
        ⟨h.entry, h.mode, h.tags⟩ hfree hothers hmore
      -- What is named later is in the catalogue too and takes the place of this language.
      have hlast : ((code :: namedLanguages rest).getLast?.bind s.catalogue.find?).or s.chosen =
          ((namedLanguages rest).getLast?.bind s.catalogue.find?).or (some ⟨code, keywords⟩) := by
        cases hnamed : (namedLanguages rest).getLast? with
        | none =>
          rw [List.getLast?_eq_none_iff] at hnamed
          simp [hnamed, hfind]
        | some other =>
          obtain ⟨found, hfound⟩ :=
            Option.isSome_iff_exists.mp (hmore other (List.mem_of_getLast? hnamed))
          simp [List.getLast?_cons, hnamed, Catalogue.find?, hfound]
      have hfree' : ¬s.fixed = true := Bool.eq_false_iff.mp hfree
      rw [h.feed_directive hremark hcode, if_neg hfree', hfind, hlast]
      exact hrest

end Session

/-! ## 5. Parsers -/

namespace Parser

open Session

variable {parser : Parser} {source : Option Text} {assumed language : Language}

theorem session_of_free (hfree : parser.language = none)
    (hstandard : parser.catalogue.find? parser.catalogue.standard = some assumed) :
    parser.session .feature source =
      .ok (Session.opening .feature parser.catalogue source assumed none) := by
  rw [session_eq_ok_iff]
  exact ⟨assumed, hstandard, by simp [hfree], by simp [hfree]⟩

theorem session_withLanguage {code : Text}
    (hstandard : parser.catalogue.find? parser.catalogue.standard = some assumed)
    (hlanguage : parser.catalogue.find? code = some language) :
    (parser.withLanguage code).session .feature source =
      .ok (Session.opening .feature parser.catalogue source assumed (some language)) := by
  rw [session_eq_ok_iff]
  exact ⟨assumed, hstandard, by simp [withLanguage, hlanguage], by simp [withLanguage, hlanguage]⟩

theorem atHead_opening (catalogue : Catalogue) (source : Option Text) (assumed : Language)
    (chosen : Option Language) : (Session.opening .feature catalogue source assumed chosen).AtHead :=
  ⟨rfl, rfl, rfl⟩

/-- The code of the language that a text without unknown languages is read in:
    the last that its leading lines name, or else the standard one. -/
def languageOf (parser : Parser) (raws : List Text) : Text :=
  (namedLanguages (leadingLines raws)).getLast?.getD parser.catalogue.standard

theorem feature_of_unknown {text raw code : Text} {before after : List Text}
    (hfree : parser.language = none)
    (hstandard : parser.catalogue.find? parser.catalogue.standard = some assumed)
    (hleading : leadingLines (lines text) = before ++ raw :: after)
    (hknown : ∀ other ∈ namedLanguages before, (parser.catalogue.lookup other).isSome = true)
    (hcode : directive? (trim raw) = some code) (hunknown : parser.catalogue.lookup code = none) :
    parser.feature text source =
      .error ⟨.unknownLanguage code, before.length + 1, some (trim raw), source⟩ := by
  have hremark : ∀ other ∈ before ++ raw :: after, isRemark other = true := by
    rw [← hleading]
    exact fun other => isRemark_of_mem_leadingLines
  have hlines : lines text = before ++ raw :: (after ++ (lines text).dropWhile isRemark) := by
    conv_lhs => rw [← leadingLines_append (lines text)]
    rw [hleading, List.append_assoc, List.cons_append]
  have hhead := atHead_opening parser.catalogue source assumed none
  have hbefore := hhead.feedAll_leading rfl
    (fun other hother => hremark other (List.mem_append_left _ hother)) hknown
  have hfind : parser.catalogue.find? code = none := by simp [Catalogue.find?, hunknown]
  rw [feature_eq_map (session_of_free hfree hstandard), hlines, feedAll_append, hbefore]
  change (Session.feedAll _ (raw :: _)).map _ = _
  rw [feedAll_cons, AtHead.feed_directive ⟨rfl, rfl, rfl⟩ (hremark raw (by simp)) hcode]
  simp [Session.opening, hfind, Except.map, Except.bind]

theorem feature_of_known {text : Text} (hfree : parser.language = none)
    (hstandard : parser.catalogue.find? parser.catalogue.standard = some assumed)
    (hknown : ∀ code ∈ namedLanguages (leadingLines (lines text)),
      (parser.catalogue.lookup code).isSome = true) :
    parser.feature text source =
      (parser.withLanguage (parser.languageOf (lines text))).feature text source := by
  have hremark : ∀ raw ∈ leadingLines (lines text), isRemark raw = true :=
    fun raw => isRemark_of_mem_leadingLines
  -- The language that the directives leave in force is the one with the chosen code.
  obtain ⟨language, hlanguage, hchosen⟩ : ∃ language,
      parser.catalogue.find? (parser.languageOf (lines text)) = some language ∧
        ((namedLanguages (leadingLines (lines text))).getLast?.bind
          parser.catalogue.find?).getD assumed = language := by
    unfold languageOf
    cases hlast : (namedLanguages (leadingLines (lines text))).getLast? with
    | none => exact ⟨assumed, hstandard, rfl⟩
    | some code =>
      obtain ⟨keywords, hlookup⟩ :=
        Option.isSome_iff_exists.mp (hknown code (List.mem_of_getLast? hlast))
      exact ⟨⟨code, keywords⟩, by simp [Catalogue.find?, hlookup], by
        simp [Catalogue.find?, hlookup]⟩
  obtain ⟨s, hfree', hfixed⟩ : ∃ s : Session,
      (Session.opening .feature parser.catalogue source assumed none).feedAll
          (leadingLines (lines text)) = .ok s ∧
        (Session.opening .feature parser.catalogue source assumed (some language)).feedAll
          (leadingLines (lines text)) = .ok s.settled := by
    refine ⟨_, (atHead_opening _ _ _ none).feedAll_leading rfl hremark hknown, ?_⟩
    rw [(atHead_opening _ _ _ (some language)).feedAll_fixed rfl hremark]
    subst hchosen
    simp [Session.opening, settled, Session.language]
  have hrest : ∀ raw ∈ ((lines text).dropWhile isRemark).head?, isRemark raw = false := by
    intro raw hraw
    have hhead := List.head?_dropWhile_not isRemark (lines text)
    rw [hraw] at hhead
    simpa using hhead
  rw [feature_eq_map (session_of_free hfree hstandard),
    feature_eq_map (session_withLanguage hstandard hlanguage), ← leadingLines_append (lines text),
    feedAll_append, feedAll_append, hfree', hfixed]
  change (s.feedAll _).map _ = (s.settled.feedAll _).map _
  rw [feedAll_settled hrest]
  cases s.feedAll ((lines text).dropWhile isRemark) with
  | error failure => rfl
  | ok t =>
    simp only [Except.map]
    rw [finishFeature_settled]

theorem feature_ignore_directive {text other raw : Text} {before after : List Text}
    (hbegun : ∃ line ∈ before, isRemark line = false) (hcomment : leads '#' (trim raw) = true)
    (hdoc : ∀ s t, parser.session .feature source = .ok s → s.feedAll before = .ok t →
      t.inDocstring = false)
    (htext : lines text = before ++ raw :: after) (hother : lines other = before ++ [] :: after) :
    parser.feature text source = parser.feature other source := by
  cases hsession : parser.session .feature source with
  | error failure =>
    unfold Parser.feature Parser.read
    rw [hsession]
    rfl
  | ok s =>
    rw [feature_eq_map hsession, feature_eq_map hsession, htext, hother, feedAll_append,
      feedAll_append]
    cases hbefore : s.feedAll before with
    | error failure => rfl
    | ok t =>
      obtain ⟨line, hline, hcontent⟩ := hbegun
      have hquiet := (begun_of_feedAll hline hcontent hbefore).directive?_eq_none
      have hopen := hdoc s t hsession hbefore
      have hremark : isRemark raw = true := isRemark_eq_true_iff.mpr (.inr hcomment)
      change (t.feedAll (raw :: after)).map _ = (t.feedAll ([] :: after)).map _
      rw [feedAll_cons, feedAll_cons, feed_of_quiet hopen hremark (hquiet raw),
        feed_of_quiet hopen rfl (hquiet [])]

/-- Without a choice of the caller, the first unknown language that the leading
    comments name is the failure.  If they are all known, the text is read as by
    the parser that is fixed to the last of them, or to the standard language.
    Behind the first tag or content a directive is no more than a blank line. -/
theorem feature_languageChoice (hfree : parser.language = none)
    (hstandard : (parser.catalogue.lookup parser.catalogue.standard).isSome = true)
    (text : Text) (source : Option Text) :
    (∀ before raw after code, leadingLines (lines text) = before ++ raw :: after →
      (∀ other ∈ namedLanguages before, (parser.catalogue.lookup other).isSome = true) →
      directive? (trim raw) = some code → parser.catalogue.lookup code = none →
      parser.feature text source =
        .error ⟨.unknownLanguage code, before.length + 1, some (trim raw), source⟩) ∧
    ((∀ code ∈ namedLanguages (leadingLines (lines text)),
        (parser.catalogue.lookup code).isSome = true) →
      parser.feature text source =
        (parser.withLanguage (parser.languageOf (lines text))).feature text source) ∧
    (∀ before raw after other, (∃ line ∈ before, isRemark line = false) →
      leads '#' (trim raw) = true →
      (∀ s t, parser.session .feature source = .ok s → s.feedAll before = .ok t →
        t.inDocstring = false) →
      lines text = before ++ raw :: after → lines other = before ++ [] :: after →
      parser.feature text source = parser.feature other source) := by
  obtain ⟨keywords, hlookup⟩ := Option.isSome_iff_exists.mp hstandard
  have hfind : parser.catalogue.find? parser.catalogue.standard =
      some ⟨parser.catalogue.standard, keywords⟩ := by
    simp [Catalogue.find?, hlookup]
  refine ⟨?_, ?_, ?_⟩
  · intro before raw after code hleading hknown hcode hunknown
    exact feature_of_unknown hfree hfind hleading hknown hcode hunknown
  · intro hknown
    exact feature_of_known hfree hfind hknown
  · intro before raw after other hbegun hcomment hdoc htext hother
    exact feature_ignore_directive hbegun hcomment hdoc htext hother

/-- For instance two directives, of which the second holds, and one behind the
    header; or a second directive that names no language of the catalogue. -/
theorem feature_languageChoice_dutch :
    ∃ text other unknown feature,
      standard.feature text none = .ok (some feature) ∧ feature.steps.length = 1 ∧
      standard.feature text none = (standard.withLanguage "nl".toList).feature text none ∧
      lines text ≠ lines other ∧
      standard.feature text none = standard.feature other none ∧
      standard.feature unknown none =
        .error ⟨.unknownLanguage "xx".toList, 2, some "# language: xx".toList, none⟩ := by
  obtain ⟨text, htext⟩ : ∃ text, text =
      "# language: fr\n#LANGUAGE:nl\n@t\nFunctionaliteit: F\n# language: en\nScenario: S\nStel a".toList :=
    ⟨_, rfl⟩
  obtain ⟨feature, hfeature, hsteps⟩ :
      ∃ feature, standard.feature text none = .ok (some feature) ∧ feature.steps.length = 1 := by
    rw [htext]
    exact ⟨_, rfl, rfl⟩
  have hfree : standard.language = none := rfl
  obtain ⟨-, hfixed, hignored⟩ := feature_languageChoice hfree rfl text none
  obtain ⟨hunknown, -⟩ := feature_languageChoice hfree rfl
    "# language: nl\n# language: xx\nFeature: F".toList none
  subst htext
  refine ⟨_, "# language: fr\n#LANGUAGE:nl\n@t\nFunctionaliteit: F\n\nScenario: S\nStel a".toList,
    "# language: nl\n# language: xx\nFeature: F".toList, feature, hfeature, hsteps, ?_, ?_, ?_, ?_⟩
  · exact hfixed (by decide)
  · decide
  · apply hignored (Builtin.texts ["# language: fr", "#LANGUAGE:nl", "@t", "Functionaliteit: F"])
      "# language: en".toList (Builtin.texts ["Scenario: S", "Stel a"])
    · decide
    · rfl
    · intro s t hsession hbefore
      obtain ⟨s', t', hsession', hbefore', hopen⟩ : ∃ s t,
          standard.session .feature none = .ok s ∧
            s.feedAll (Builtin.texts
              ["# language: fr", "#LANGUAGE:nl", "@t", "Functionaliteit: F"]) = .ok t ∧
            t.inDocstring = false := ⟨_, _, rfl, rfl, rfl⟩
      obtain rfl : s' = s := Except.ok.inj (hsession'.symm.trans hsession)
      obtain rfl : t' = t := Except.ok.inj (hbefore'.symm.trans hbefore)
      exact hopen
    · rfl
    · rfl
  · exact hunknown [_] _ [] _ rfl (by decide) rfl rfl

end Parser

end Gherkin
