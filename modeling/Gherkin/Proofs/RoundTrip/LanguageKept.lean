/-
  Gherkin/Proofs/RoundTrip/LanguageKept.lean
  ==========================================
  **Which language a written feature is read in.**

  A written feature names its language unless that is the bundled standard one.
  A parser without a choice of the caller takes the language that is named, or
  else the standard one of its own catalogue.  So a written feature is read in its
  own language unless it is in the bundled standard language and the catalogue has
  another standard (`Parser.language_render_iff`).

  Nothing else in front of the feature header can name a language: tags begin with
  `@`, and the keyword of a header that was read does not begin like a comment.
-/
import Gherkin.Proofs.RoundTrip.Rendering
import Gherkin.Proofs.Session.WellFormed

namespace Gherkin

open Text

/-! ## 1. The header that was read -/

/-- The keyword of a header does not begin like a comment if its line does not. -/
theorem Keywords.leads_keyword {keywords : Keywords} {category : Category}
    {line keyword title : Text} (h : keywords.header? category line = some (keyword, title))
    (hlead : leads '#' line = false) : leads '#' keyword = false := by
  obtain ⟨-, rest, rfl, -⟩ := Keywords.header?_eq_some h
  cases keyword with
  | nil => rfl
  | cons c keyword => exact hlead

namespace Session

variable {s t : Session} {raw : Text} {kind : LineKind}

/-- The header of the feature that is being read. -/
def featureHeader? (s : Session) : Option Header := s.feature.map (·.top.header)

theorem featureHeader?_closeStatement (s : Session) :
    s.closeStatement.featureHeader? = s.featureHeader? := by
  unfold featureHeader?
  rw [closeStatement_eq]
  by_cases hrule : s.rule.isSome = true
  · rw [if_pos hrule]
  · rw [if_neg hrule, Option.map_map]
    exact congrArg (Option.map · s.feature)
      (funext fun feature => feature.top.header_closeAll s.statement)

theorem featureHeader?_closeRule (s : Session) : s.closeRule.featureHeader? = s.featureHeader? := by
  unfold featureHeader?
  rw [closeRule_eq, Option.map_map]
  rfl

theorem featureHeader?_facing (s : Session) (raw : Text) :
    (s.facing raw).featureHeader? = s.featureHeader? := by
  apply facing_cases (P := fun u => u.featureHeader? = s.featureHeader?)
  · rfl
  · rw [closeTable_eq]
    rfl

/-- Only a header in front of the feature sets the header of the feature. -/
theorem takes_featureHeader (h : Takes s raw kind t) :
    t.featureHeader? = s.featureHeader? ∨
      s.mode = .start ∧ t.featureHeader? = s.header? .feature raw := by
  cases h with
  | feature hs hfits => exact .inr ⟨hs, hfits.symm⟩
  | rule hs hfits hfeature =>
    left
    have hrule := featureHeader?_closeRule s.closeStatement
    rw [featureHeader?_closeStatement] at hrule
    exact hrule
  | scenario hs hknown hfits hgroup => exact .inl (featureHeader?_closeStatement s)
  | background hs hfits htags hfresh => exact .inl (featureHeader?_closeStatement s)
  | groupDescription hs htagless hplain =>
    left
    unfold featureHeader?
    rw [mapGroup_eq]
    by_cases hrule : s.rule.isSome = true
    · rw [if_pos hrule]
    · rw [if_neg hrule, Option.map_map]
      rfl
  | _ => exact .inl rfl

/-- The feature that is being read has a header that is no comment. -/
def HeaderVisible (s : Session) : Prop :=
  ∀ header, s.featureHeader? = some header → leads '#' header.keyword = false

theorem HeaderVisible.feed (hvisible : s.HeaderVisible) (h : s.feed raw = .ok t) :
    t.HeaderVisible := by
  rcases feed_cases h with ⟨-, chosen, rfl, -⟩ | ⟨-, hcomment, kind, -, htakes⟩
  · exact hvisible
  · rcases takes_featureHeader htakes with hsame | ⟨hstart, hnew⟩
    · intro header hheader
      rw [hsame, featureHeader?_facing] at hheader
      exact hvisible header hheader
    · intro header hheader
      have hopen : s.inDocstring = false := by
        cases hmode : s.mode with
        | docstring block =>
          have hdoc : (s.enter raw).mode = .docstring block := hmode
          simp [Session.facing, leaveTable, inTable, hdoc] at hstart
        | _ => simp [inDocstring, hmode]
      have hlead : leads '#' (trim raw) = false := by
        simpa [isComment, hopen] using hcomment
      obtain ⟨⟨keyword, title⟩, hfound, rfl⟩ := Option.map_eq_some_iff.mp (hnew.symm.trans hheader)
      exact Keywords.leads_keyword hfound hlead

theorem HeaderVisible.feedAll {raws : List Text} (hvisible : s.HeaderVisible)
    (h : s.feedAll raws = .ok t) : t.HeaderVisible :=
  feedAll_induction (P := fun u _ => u.HeaderVisible) h hvisible fun hu hnext => hu.feed hnext

end Session

theorem Parser.leads_featureHeader {parser : Parser} {text : Text} {source : Option Text}
    {feature : Feature} (h : parser.feature text source = .ok (some feature)) :
    leads '#' feature.top.header.keyword = false := by
  obtain ⟨s, t, hsession, hfeed, hfinish⟩ := feature_eq_ok h
  obtain ⟨standard, -, -, rfl⟩ := Session.session_eq_ok_iff.mp hsession
  have hvisible : t.HeaderVisible := by
    refine Session.HeaderVisible.feedAll ?_ hfeed
    intro header hheader
    exact absurd hheader (Option.some_ne_none header).symm
  have hsame : t.closeTable.closeStatement.closeRule.featureHeader? = t.featureHeader? := by
    rw [Session.featureHeader?_closeRule, Session.featureHeader?_closeStatement,
      Session.closeTable_eq]
    rfl
  apply hvisible
  have hfinished : t.closeTable.closeStatement.closeRule.feature = some feature := hfinish
  rw [← hsame, Session.featureHeader?, hfinished, Option.map_some]

/-! ## 2. The first lines of a written feature -/

namespace Printer

/-- What a written feature begins with: its language, if it is not the bundled
    standard one. -/
def languageLine (feature : Feature) : List Text :=
  if feature.language = Builtin.standard then [] else [directive feature.language]

theorem block_zero (list : List Text) : block 0 list = list := by
  have hindent : ∀ line : Text, indent 0 line = line := by
    intro line
    cases line <;> rfl
  rw [block, funext hindent]
  exact List.map_id list

/-- Behind the language there stand the tags, and behind them the header. -/
theorem exists_feature_eq (feature : Feature) :
    ∃ rest, Printer.feature feature =
      languageLine feature ++ tagLine feature.top.tags ++ [header feature.top.header] ++ rest := by
  have hheader : [indent 0 (header feature.top.header)] = [header feature.top.header] :=
    block_zero [header feature.top.header]
  obtain ⟨body, hbody⟩ : ∃ body, group 0 1 feature.top =
      tagLine feature.top.tags ++ [header feature.top.header] ++ body :=
    ⟨_, by rw [group_eq_append, block_zero, hheader]⟩
  refine ⟨body ++ feature.rules.flatMap (group 1 2), ?_⟩
  unfold Printer.feature
  rw [hbody, ← languageLine]
  simp only [List.append_assoc]

end Printer

/-- The lines in front of the header, and the header, are the first lines of the
    text that is written. -/
theorem Feature.exists_lines_render {feature : Feature}
    (hlanguage : ∀ line ∈ Printer.languageLine feature, SingleLine line)
    (htags : ∀ tag ∈ feature.top.tags, tag.FromWord)
    (hheader : SingleLine (Printer.header feature.top.header)) :
    ∃ rest, lines feature.render =
      Printer.languageLine feature ++ (Printer.tagLine feature.top.tags ++
        Printer.header feature.top.header :: rest) := by
  obtain ⟨more, hmore⟩ := Printer.exists_feature_eq feature
  have hsingle : ∀ line ∈ Printer.languageLine feature ++ Printer.tagLine feature.top.tags ++
      [Printer.header feature.top.header], SingleLine line := by
    intro line hline
    rcases List.mem_append.mp hline with hline | hline
    · rcases List.mem_append.mp hline with hline | hline
      · exact hlanguage line hline
      · unfold Printer.tagLine at hline
        split at hline
        · exact absurd hline List.not_mem_nil
        · rw [List.mem_singleton.mp hline]
          exact singleLine_tagLine htags
    · exact List.mem_singleton.mp hline ▸ hheader
  refine ⟨lines (more.flatMap (· ++ ['\n'])), ?_⟩
  rw [Feature.render, hmore, List.flatMap_append, lines_flatMap_newline_append hsingle]
  simp

/-- Neither tags nor a header are a comment. -/
theorem leadingLines_append_tagLine {first : List Text} (hfirst : ∀ raw ∈ first, isRemark raw = true)
    {tags : List Tag} (htags : ∀ tag ∈ tags, tag.FromWord) {header : Text}
    (hheader : isRemark header = false) (rest : List Text) :
    leadingLines (first ++ (Printer.tagLine tags ++ header :: rest)) = first := by
  have hnext : (Printer.tagLine tags ++ header :: rest).takeWhile isRemark = [] := by
    unfold Printer.tagLine
    by_cases hne : tags = []
    · rw [if_pos (by simpa using hne), List.nil_append,
        List.takeWhile_cons_of_neg (by simp [hheader])]
    · obtain ⟨word, hword⟩ := Session.leads_join_written hne
      have htrim := trim_eq_self (trimmed_tagLine htags)
      rw [if_neg (by simpa using hne), List.singleton_append, List.takeWhile_cons_of_neg]
      rw [isRemark, htrim, hword]
      simp [leads]
  rw [leadingLines, List.takeWhile_append_of_pos hfirst, hnext, List.append_nil]

/-- The written header is a header again, and no comment. -/
theorem Header.Attested.isHeader {src : Source} {keywords : Keywords} {header : Header}
    {category : Category} (h : header.Attested src keywords category)
    (hlead : leads '#' header.keyword = false) :
    keywords.isHeader category (trim (Printer.header header)) = true ∧
      isRemark (Printer.header header) = false := by
  obtain ⟨raw, -, hfits⟩ := h
  obtain ⟨hmem, rest, hline, htitle⟩ := Keywords.header?_eq_some hfits
  obtain ⟨tail, hwritten, -, hend⟩ := Header.written_eq (htitle ▸ trimmed_trim rest)
  have hstart : SolidStart (header.keyword ++ ':' :: tail) := by
    have hread : SolidStart (header.keyword ++ ':' :: rest) := hline ▸ (trimmed_trim raw).1
    cases hkeyword : header.keyword with
    | nil => exact solidStart_cons.mpr (by decide)
    | cons c keyword => rwa [hkeyword] at hread
  have htrim : trim (Printer.header header) = header.keyword ++ ':' :: tail := by
    rw [hwritten]
    exact trim_eq_self ⟨hstart, hend.append (by simp)⟩
  constructor
  · rw [htrim]
    exact Keywords.isHeader_append hmem tail
  · rw [isRemark, htrim]
    cases hkeyword : header.keyword with
    | nil => rfl
    | cons c keyword =>
      rw [hkeyword] at hlead
      exact hlead

/-- The line of the language is a comment. -/
theorem Printer.isRemark_of_mem_languageLine {feature : Feature}
    (hcode : feature.language ≠ [] ∧ Trimmed feature.language ∧ SingleLine feature.language) :
    ∀ line ∈ Printer.languageLine feature, SingleLine line ∧ isRemark line = true := by
  intro line hline
  unfold Printer.languageLine at hline
  split at hline
  · exact absurd hline List.not_mem_nil
  · obtain rfl := List.mem_singleton.mp hline
    have hcomment := (Session.directive?_directive hcode.1 hcode.2.1).1
    exact ⟨Session.singleLine_directive hcode.2.2, isRemark_eq_true_iff.mpr (.inr hcomment)⟩

/-- What a feature that was read begins with when it is written: blank lines and
    comments are the line of its language and nothing else. -/
theorem Feature.Attested.leadingLines_render {src : Source} {keywords : Keywords} {feature : Feature}
    (hsrc : ∀ n raw, src n raw → SingleLine raw) (h : feature.Attested src keywords)
    (hlead : leads '#' feature.top.header.keyword = false)
    (hcode : feature.language ≠ [] ∧ Trimmed feature.language ∧ SingleLine feature.language) :
    leadingLines (lines feature.render) = Printer.languageLine feature ∧
      ∃ rest, lines feature.render = Printer.languageLine feature ++
        (Printer.tagLine feature.top.tags ++ Printer.header feature.top.header :: rest) := by
  have hnamed := Printer.isRemark_of_mem_languageLine hcode
  have hwords : ∀ tag ∈ feature.top.tags, tag.FromWord :=
    fun tag htag => (h.top.tags tag htag).fromWord
  obtain ⟨rest, hlines⟩ := Feature.exists_lines_render (fun line hline => (hnamed line hline).1)
    hwords (h.header.singleLine hsrc)
  refine ⟨?_, rest, hlines⟩
  rw [hlines]
  exact leadingLines_append_tagLine (fun line hline => (hnamed line hline).2) hwords
    (h.header.isHeader hlead).2 rest

/-! ## 3. The language in force -/

namespace Parser

variable {parser : Parser} {feature : Feature} {keywords : Keywords}

/-- Behind the first lines of a written feature that language is in force which
    they name, or else the standard one of the catalogue. -/
theorem feedAll_languageLine (assumed : Language) (source : Option Text)
    (hfind : parser.catalogue.find? feature.language = some ⟨feature.language, keywords⟩)
    (hcode : feature.language ≠ [] ∧ Trimmed feature.language) :
    ∃ t, (Session.opening .feature parser.catalogue source assumed none).feedAll
        (Printer.languageLine feature) = .ok t ∧ t.mode = .start ∧ t.tags = [] ∧
      t.language =
        if feature.language = Builtin.standard then assumed else ⟨feature.language, keywords⟩ := by
  unfold Printer.languageLine
  by_cases hstandard : feature.language = Builtin.standard
  · rw [if_pos hstandard, if_pos hstandard]
    exact ⟨_, rfl, rfl, rfl, rfl⟩
  · rw [if_neg hstandard, if_neg hstandard]
    obtain ⟨hcomment, hdirective⟩ := Session.directive?_directive hcode.1 hcode.2
    have hfeed := Session.feed_directive
      (s := Session.opening .feature parser.catalogue source assumed none)
      rfl rfl rfl hcomment hdirective (.inr ⟨rfl, hfind⟩)
    rw [Session.feedAll_cons, hfeed]
    exact ⟨_, rfl, rfl, rfl, rfl⟩

/-- The language that is named or assumed is that of the feature exactly if it is
    named, or the standards agree. -/
theorem language_eq_iff {assumed : Language}
    (hassumed : parser.catalogue.find? parser.catalogue.standard = some assumed)
    (hfind : parser.catalogue.find? feature.language = some ⟨feature.language, keywords⟩) :
    (if feature.language = Builtin.standard then assumed else ⟨feature.language, keywords⟩) =
        ⟨feature.language, keywords⟩ ↔
      feature.language ≠ Builtin.standard ∨ parser.catalogue.standard = Builtin.standard := by
  by_cases hstandard : feature.language = Builtin.standard
  · rw [if_pos hstandard]
    constructor
    · intro hsame
      right
      rw [← (Session.find?_code hassumed).1, hsame]
      exact hstandard
    · rintro (hdiffer | hsame)
      · exact absurd hstandard hdiffer
      · rw [hsame, ← hstandard, hfind, Option.some.injEq] at hassumed
        exact hassumed.symm
  · rw [if_neg hstandard]
    exact ⟨fun _ => .inl hstandard, fun _ => rfl⟩

/-- A feature that was read and written begins with blank lines and comments, its
    tags and its header, which is a header in its language again.  Where a parser
    without a choice of the caller comes to the first line that is no comment, the
    language of the feature is in force exactly if it is not the bundled standard
    one or the catalogue has the same standard.  Tags do not change it. -/
theorem language_render_iff (hfree : parser.language = none)
    (hcodes : ∀ code, (parser.catalogue.lookup code).isSome = true →
      code ≠ [] ∧ Trimmed code ∧ SingleLine code)
    {text : Text} {source : Option Text} (h : parser.feature text source = .ok (some feature))
    (other : Option Text) :
    ∃ keywords s t u rest,
      parser.catalogue.lookup feature.language = some keywords ∧
      parser.session .feature other = .ok s ∧
      lines feature.render = leadingLines (lines feature.render) ++
        (Printer.tagLine feature.top.tags ++ Printer.header feature.top.header :: rest) ∧
      keywords.isHeader .feature (trim (Printer.header feature.top.header)) = true ∧
      s.feedAll (leadingLines (lines feature.render)) = .ok t ∧
      t.feedAll (Printer.tagLine feature.top.tags) = .ok u ∧ u.language = t.language ∧
      (t.language = ⟨feature.language, keywords⟩ ↔
        feature.language ≠ Builtin.standard ∨
          parser.catalogue.standard = Builtin.standard) := by
  obtain ⟨keywords, hlookup, hattested, -, -⟩ := attested_of_feature h
  obtain ⟨assumed, hassumed⟩ : ∃ assumed,
      parser.catalogue.find? parser.catalogue.standard = some assumed := by
    obtain ⟨s, t, hsession, -, -⟩ := feature_eq_ok h
    obtain ⟨assumed, hassumed, -, -⟩ := Session.session_eq_ok_iff.mp hsession
    exact ⟨assumed, hassumed⟩
  have hfind : parser.catalogue.find? feature.language = some ⟨feature.language, keywords⟩ := by
    simp [Catalogue.find?, hlookup]
  have hcode := hcodes feature.language (by simp [hlookup])
  have hsrc : ∀ n raw, Source.ofLines (lines text) n raw → SingleLine raw :=
    fun n raw => singleLine_of_ofLines
  have hlead := leads_featureHeader h
  obtain ⟨hleading, rest, hlines⟩ := hattested.leadingLines_render hsrc hlead hcode
  obtain ⟨t, hfeed, hmode, htags, hlanguage⟩ :=
    feedAll_languageLine assumed other hfind ⟨hcode.1, hcode.2.1⟩
  -- The tags leave the language as it is, whatever the header that follows them is.
  have hawaits : t.Awaits t.language t.source [] :=
    ⟨(Session.Sound.opening .feature parser.catalogue other assumed none).feedAll hfeed, hmode, rfl,
      rfl, by rw [htags]; rfl⟩
  have hwords : ∀ tag ∈ feature.top.tags, tag.FromWord :=
    fun tag htag => (hattested.top.tags tag htag).fromWord
  obtain ⟨u, htagged, hu⟩ := (Session.reads_awaitedTags hwords 0).run t hawaits
  rw [Printer.block_zero] at htagged
  refine ⟨keywords, _, t, u, rest, hlookup, session_of_free hfree hassumed, ?_,
    (hattested.header.isHeader hlead).1, ?_, htagged, hu.language, ?_⟩
  · rw [hleading]
    exact hlines
  · rw [hleading]
    exact hfeed
  · rw [hlanguage]
    exact language_eq_iff hassumed hfind

/-- The parser for a list of languages of which the first is assumed. -/
def ofLanguages (first : Language) (others : List Language) : Parser :=
  ⟨.ofLanguages first.code (first :: others), none⟩

/-- What holds of the codes in a list of languages holds of all that are found. -/
theorem code_of_lookup {first : Language} {others : List Language} {P : Text → Prop}
    (h : ∀ language ∈ first :: others, P language.code) {code : Text}
    (hknown : ((ofLanguages first others).catalogue.lookup code).isSome = true) : P code := by
  rw [ofLanguages, Catalogue.ofLanguages, Option.isSome_map, List.find?_isSome] at hknown
  obtain ⟨language, hmem, hcode⟩ := hknown
  exact beq_iff_eq.mp hcode ▸ h language hmem

/-- For instance French where German is assumed. -/
theorem language_render_french :
    ∃ feature s t,
      (ofLanguages ⟨"de".toList, Builtin.german⟩ [⟨"fr".toList, Builtin.french⟩]).feature
        "# language: fr\n@t\nFonctionnalité: F".toList none = .ok (some feature) ∧
      (ofLanguages ⟨"de".toList, Builtin.german⟩ [⟨"fr".toList, Builtin.french⟩]).session
        .feature none = .ok s ∧
      s.feedAll (leadingLines (lines feature.render)) = .ok t ∧
      t.language = ⟨"fr".toList, Builtin.french⟩ := by
  obtain ⟨feature, hread, hcode⟩ : ∃ feature,
      (ofLanguages ⟨"de".toList, Builtin.german⟩ [⟨"fr".toList, Builtin.french⟩]).feature
        "# language: fr\n@t\nFonctionnalité: F".toList none = .ok (some feature) ∧
      feature.language = "fr".toList := ⟨_, rfl, rfl⟩
  have hcodes : ∀ language ∈
      ([⟨"de".toList, Builtin.german⟩, ⟨"fr".toList, Builtin.french⟩] : List Language),
      language.code ≠ [] ∧ Trimmed language.code ∧ SingleLine language.code := by decide
  obtain ⟨keywords, s, t, u, rest, hlookup, hsession, -, -, hfeed, -, -, hiff⟩ :=
    language_render_iff rfl
      (fun code => code_of_lookup (P := fun code => code ≠ [] ∧ Trimmed code ∧ SingleLine code)
        hcodes) hread none
  have hfrench : Builtin.french = keywords := by
    rw [hcode] at hlookup
    exact Option.some.inj hlookup
  refine ⟨feature, s, t, hread, hsession, hfeed, ?_⟩
  rw [hiff.mpr (.inl (by rw [hcode]; decide)), hcode, hfrench]

/-- English is not written where German is assumed, and so it is read as German. -/
theorem language_render_english :
    ∃ feature s t,
      (ofLanguages ⟨"de".toList, Builtin.german⟩ [⟨"en".toList, Builtin.english⟩]).feature
        "# language: en\nFeature: F".toList none = .ok (some feature) ∧
      feature.language = "en".toList ∧
      (ofLanguages ⟨"de".toList, Builtin.german⟩ [⟨"en".toList, Builtin.english⟩]).session
        .feature none = .ok s ∧
      s.feedAll (leadingLines (lines feature.render)) = .ok t ∧ t.language.code = "de".toList ∧
      ((ofLanguages ⟨"de".toList, Builtin.german⟩ [⟨"en".toList, Builtin.english⟩]).feature
        feature.render none).isOk = false :=
  ⟨_, _, _, rfl, rfl, rfl, rfl, rfl, rfl⟩

end Parser

end Gherkin
