/-
  Gherkin/Proofs/Session/TagText.lean
  ===================================
  **Tags on their own are read like tags in front of a feature.**

  Tags can be read from a text that holds nothing else (`readTags`), and they can
  be read as the beginning of a feature.  The two readings end their lines at
  different places and leave out comments in different ways, one word by word and
  the other line by line.  They agree nevertheless: carriage returns and a last
  line without content make no difference (`readTags_eq`), and where the language
  is fixed each line adds the same tags (`feed_of_readTagLine`) or is refused for the
  same word (`feed_badTag`).

  This leaves out the lines that start with another word.  On its own such a word is
  a bad tag; in front of a feature the line may be the header, or else it is not
  expected.
-/
import Gherkin.Parser
import Gherkin.Proofs.Answers
import Gherkin.Proofs.Session.LanguageChoice

namespace Gherkin

open Text

/-! ## 1. Where lines end -/

/-- A blank at the end of a line is not read. -/
theorem readTagLine_dropFinal {c : Char} (hc : isBlank c = true) (raw : Text) (index : Nat) :
    readTagLine (dropFinal c raw, index) = readTagLine (raw, index) := by
  obtain ⟨blanks, heq, hblanks⟩ := exists_blanks_dropFinal hc raw
  have hwords : words raw = words (dropFinal c raw) := by
    conv_lhs => rw [heq]
    exact words_append_blanks hblanks _
  have htrim : trim raw = trim (dropFinal c raw) := by
    conv_lhs => rw [heq]
    exact trim_append_blanks hblanks _
  simp only [readTagLine, Tag.ofLine, hwords, htrim]

/-- The tags of a text are the tags of the pieces between its line feeds. -/
theorem readTags_eq (text : Text) :
    readTags text = ((lines text).zipIdx.mapM readTagLine).map List.flatten := by
  obtain ⟨before, last, hlines⟩ : ∃ before last, lines text = before ++ [last] := by
    rcases List.eq_nil_or_concat (lines text) with hnil | ⟨before, last, heq⟩
    · exact absurd hnil (lines_ne_nil text)
    · exact ⟨before, last, by simpa using heq⟩
  have hbefore : (before.map (dropFinal '\r')).zipIdx.mapM readTagLine =
      before.zipIdx.mapM readTagLine := by
    rw [List.zipIdx_map, List.mapM_map]
    congr 1
    funext line
    exact readTagLine_dropFinal (by decide) line.1 line.2
  -- What follows the last line feed is no line if it is empty, and has no tags anyway.
  have hempty : ∀ index, readTagLine ([], index) = .ok [] := fun _ => rfl
  unfold readTags terminatedLines
  rw [hlines, List.dropLast_concat, List.getLast?_concat, List.zipIdx_append, List.zipIdx_append,
    List.mapM_append, List.mapM_append, hbefore, List.length_map]
  cases before.zipIdx.mapM readTagLine with
  | error failure => rfl
  | ok rows =>
    cases last with
    | nil => simp [hempty, bind, Except.bind, pure, Except.pure, Except.map]
    | cons c rest => simp [bind, Except.bind, pure, Except.pure, Except.map]

/-! ## 2. One line -/

/-- A blank line or a comment has no tags. -/
theorem Tag.ofLine_of_isRemark {raw : Text} (h : isRemark raw = true) (line : Nat) :
    Tag.ofLine line raw = .ok [] := by
  unfold Tag.ofLine
  rw [← words_trim]
  cases htrim : trim raw with
  | nil => rfl
  | cons c rest =>
    have hc : c = '#' := by simpa [isRemark, htrim, leads] using h
    subst hc
    obtain ⟨word, others, hwords⟩ := words_cons_of_solid (c := '#') (by decide) rest
    rw [hwords]
    rfl

/-- Any other line of tags starts with the sign of a tag. -/
theorem Tag.leads_of_ofLine {raw : Text} {line : Nat} {tags : List Tag}
    (h : Tag.ofLine line raw = .ok tags) (hcontent : isRemark raw = false) :
    leads '@' (trim raw) = true := by
  unfold Tag.ofLine at h
  rw [← words_trim] at h
  have hstart := (trimmed_trim raw).1
  cases htrim : trim raw with
  | nil => simp [isRemark, htrim] at hcontent
  | cons c rest =>
    rw [htrim] at h hstart
    obtain ⟨word, others, hwords⟩ := words_cons_of_solid (solidStart_cons.mp hstart) rest
    rw [hwords] at h
    unfold Tag.ofWords at h
    split at h
    · rename_i name heq
      rw [List.cons.injEq] at heq
      simp [leads, heq.1]
    · rename_i name heq
      rw [List.cons.injEq] at heq
      simp [isRemark, htrim, leads, heq.1] at hcontent
    · simp at h

theorem readTagLine_eq_ok_iff {raw : Text} {index : Nat} {tags : List Tag} :
    readTagLine (raw, index) = .ok tags ↔ Tag.ofLine (index + 1) raw = .ok tags :=
  mapError_eq_ok_iff

theorem readTagLine_eq_error {raw : Text} {index : Nat} {failure : Failure}
    (h : readTagLine (raw, index) = .error failure) :
    ∃ word, Tag.ofLine (index + 1) raw = .error word ∧
      failure = ⟨.badTag word, index + 1, some (trim raw), none⟩ := by
  obtain ⟨word, hrow, hfailure⟩ := mapError_eq_error_iff.mp h
  exact ⟨word, hrow, hfailure.symm⟩

namespace Session

variable {s : Session} {raw : Text}

theorem facing_of_start (hmode : s.mode = .start) (raw : Text) : s.facing raw = s.enter raw := by
  have htable : (s.enter raw).inTable = false := by simp [inTable, Session.enter, hmode]
  simp [Session.facing, leaveTable, htable]

/-- In front of the feature a line that starts with the sign of a tag is counted
    and read as a line of tags. -/
theorem feed_of_at (hmode : s.mode = .start) (hlead : leads '@' (trim raw) = true) :
    s.feed raw = ({ s with line := s.line + 1 } : Session).read raw ∧
      ({ s with line := s.line + 1 } : Session).kind? raw = some .tags := by
  have hcontent : isRemark raw = false := by
    have hcomment : leads '#' (trim raw) = false := leads_eq_false_of_leads hlead (by decide)
    have hvisible : trim raw ≠ [] := fun hnil => by simp [hnil, leads] at hlead
    simp [isRemark, hcomment, hvisible]
  have henter : s.enter raw = { s with line := s.line + 1 } := by
    simp [Session.enter, consults, hmode, hlead]
  refine ⟨?_, ?_⟩
  · rw [feed_of_content hcontent, facing_of_start hmode, henter]
  · rw [kind?_eq]
    simp [hmode, Mode.kinds, LineKind.fits, hlead]

/-- Tags in front of the feature wait for its header. -/
theorem feed_tagLine {tags : List Tag} (hmode : s.mode = .start)
    (hlead : leads '@' (trim raw) = true) (hrow : Tag.ofLine (s.line + 1) (trim raw) = .ok tags) :
    s.feed raw = .ok { s with line := s.line + 1, tags := s.tags ++ tags } := by
  obtain ⟨hfeed, hkind⟩ := feed_of_at hmode hlead
  have htakes := Takes.tags (s := { s with line := s.line + 1 }) (.inl hmode) hlead hrow
  rw [hfeed, read_of_takes hkind htakes]
  simp [hmode]

/-- A line of tags in front of the feature is refused if it has a word that is no
    tag. -/
theorem feed_badTag {word : Text} (hmode : s.mode = .start) (hlead : leads '@' (trim raw) = true)
    (hrow : Tag.ofLine (s.line + 1) (trim raw) = .error word) :
    s.feed raw = .error ⟨.badTag word, s.line + 1, some (trim raw), s.source⟩ := by
  obtain ⟨hfeed, hkind⟩ := feed_of_at hmode hlead
  have hrefuses := Refuses.tags (s := { s with line := s.line + 1 }) hlead hrow
  rw [hfeed, read_of_refuses hkind hrefuses]
  rfl

/-- The header of the feature takes over the tags that wait for it. -/
theorem feed_featureHeader {keyword title : Text} (hmode : s.mode = .start)
    (hcontent : isRemark raw = false) (hplain : leads '@' (trim raw) = false)
    (hfits : s.keywords.header? .feature (trim raw) = some (keyword, title)) :
    s.feed raw = .ok { s with
      line := s.line + 1
      chosen := some s.language
      mode := .feature
      tags := []
      feature := some ⟨s.source, s.language.code, .start ⟨keyword, title, s.line + 1⟩ s.tags, []⟩ }
    := by
  have henter : s.enter raw = { s with line := s.line + 1, chosen := some s.language } := by
    simp only [isRemark, Bool.or_eq_false_iff] at hcontent
    simp [Session.enter, consults, skips, isComment, hmode, hcontent, hplain]
  have hkeywords : (s.enter raw).keywords = s.keywords :=
    congrArg (·.keywords) (enter_language s raw)
  have hheader : (s.enter raw).header? .feature raw = some ⟨keyword, title, s.line + 1⟩ := by
    rw [Session.header?, hkeywords, hfits]
    rfl
  have hkind : (s.enter raw).kind? raw = some .feature := by
    have hmode' : (s.enter raw).mode = .start := hmode
    have htags : LineKind.fits (s.enter raw) raw .tags = false := hplain
    have hfeature : LineKind.fits (s.enter raw) raw .feature = true := by
      rw [LineKind.fits, ← isSome_header?, hheader]
      rfl
    rw [kind?_eq, hmode', Mode.kinds, List.find?_cons_of_neg (by simp [htags]),
      List.find?_cons_of_pos hfeature]
  have htakes := Takes.feature (s := s.enter raw) hmode hheader
  rw [feed_of_content hcontent, facing_of_start hmode, read_of_takes hkind htakes, henter]
  rfl

theorem finishFeature_of_head (hmode : s.mode = .feature) (hstatement : s.statement = none)
    (hrule : s.rule = none) : s.finishFeature = s.feature := by
  simp [finishFeature, closeTable, closeStatement, closeRule, hmode, hstatement, hrule]

/-! ## 3. Many lines -/

/-- Where the language is fixed, a line of a text of tags does the same in front of
    a feature. -/
theorem feed_of_readTagLine {tags : List Tag} (hmode : s.mode = .start) (hfixed : s.fixed = true)
    (h : readTagLine (raw, s.line) = .ok tags) :
    s.feed raw = .ok { s with line := s.line + 1, tags := s.tags ++ tags } := by
  have hrow := readTagLine_eq_ok_iff.mp h
  cases hremark : isRemark raw with
  | true =>
    -- A comment that looks like a directive is not heeded, for the language is fixed.
    have hdoc : s.inDocstring = false := by simp [inDocstring, hmode]
    rw [Tag.ofLine_of_isRemark hremark, Except.ok.injEq] at hrow
    rw [feed_of_fixed hdoc hremark hfixed, ← hrow, List.append_nil]
  | false =>
    apply feed_tagLine hmode (Tag.leads_of_ofLine hrow hremark)
    rw [Tag.ofLine, words_trim]
    exact hrow

/-- The tags of many such lines wait together, in the order of the lines. -/
theorem feedAll_of_rows {raws : List Text} {rows : List (List Tag)} (hmode : s.mode = .start)
    (hfixed : s.fixed = true) (h : (raws.zipIdx s.line).mapM readTagLine = .ok rows) :
    s.feedAll raws =
      .ok { s with line := s.line + raws.length, tags := s.tags ++ rows.flatten } := by
  induction raws generalizing s rows with
  | nil =>
    have hrows : [] = rows := by simpa [pure, Except.pure] using h
    simp [← hrows]
  | cons raw rest ih =>
    rw [List.zipIdx_cons, List.mapM_cons, bind_eq_ok_iff] at h
    obtain ⟨tags, hrow, hmore⟩ := h
    obtain ⟨others, hothers, hrows⟩ := bind_eq_ok_iff.mp hmore
    have hrows : tags :: others = rows := by simpa [pure, Except.pure] using hrows
    -- The session behind the line has counted it, so its rows are numbered on from there.
    have hrest := ih (s := { s with line := s.line + 1, tags := s.tags ++ tags }) hmode hfixed
      hothers
    rw [feedAll_cons_of_ok (feed_of_readTagLine hmode hfixed hrow), hrest, ← hrows]
    simp [Nat.add_comm, Nat.add_left_comm]

/-- The header behind such lines takes over all their tags. -/
theorem feedAll_rows_header {raws : List Text} {rows : List (List Tag)} {keyword title : Text}
    (hmode : s.mode = .start) (hfixed : s.fixed = true)
    (h : (raws.zipIdx s.line).mapM readTagLine = .ok rows) (hcontent : isRemark raw = false)
    (hplain : leads '@' (trim raw) = false)
    (hfits : s.keywords.header? .feature (trim raw) = some (keyword, title)) :
    s.feedAll (raws ++ [raw]) = .ok { s with
      line := s.line + raws.length + 1
      chosen := some s.language
      mode := .feature
      tags := []
      feature := some ⟨s.source, s.language.code,
        .start ⟨keyword, title, s.line + raws.length + 1⟩ (s.tags ++ rows.flatten), []⟩ } := by
  have hheader := feed_featureHeader (s := { s with
    line := s.line + raws.length, tags := s.tags ++ rows.flatten }) hmode hcontent hplain hfits
  rw [feedAll_append_of_ok (feedAll_of_rows hmode hfixed h), feedAll_cons_of_ok hheader]
  rfl

/-- The first line that fails in a text of tags fails in front of a feature, if it
    starts with the sign of a tag. -/
theorem feedAll_of_badRow {raws : List Text} {failure : Failure} (hmode : s.mode = .start)
    (hfixed : s.fixed = true) (h : (raws.zipIdx s.line).mapM readTagLine = .error failure)
    (hlead : ∀ shown ∈ failure.position.text, leads '@' shown = true) :
    s.feedAll raws =
      .error { failure with position := { failure.position with source := s.source } } := by
  induction raws generalizing s with
  | nil => simp [pure, Except.pure] at h
  | cons raw rest ih =>
    rw [List.zipIdx_cons, List.mapM_cons, bind_eq_error_iff] at h
    rcases h with hrow | ⟨tags, hrow, hmore⟩
    · obtain ⟨word, hword, rfl⟩ := readTagLine_eq_error hrow
      apply feedAll_cons_of_error
      apply feed_badTag hmode (hlead _ rfl)
      rw [Tag.ofLine, words_trim]
      exact hword
    · have hrest : (rest.zipIdx (s.line + 1)).mapM readTagLine = .error failure := by
        rcases bind_eq_error_iff.mp hmore with hrest | ⟨rows, -, hpure⟩
        · exact hrest
        · simp [pure, Except.pure] at hpure
      rw [feedAll_cons_of_ok (feed_of_readTagLine hmode hfixed hrow)]
      exact ih (s := { s with line := s.line + 1, tags := s.tags ++ tags }) hmode hfixed hrest

end Session

/-! ## 4. Parsers -/

namespace Parser

open Session

variable {parser : Parser} {source : Option Text} {assumed language : Language} {text : Text}

/-- Tags that can be read on their own are the tags of the feature whose header
    follows them. -/
theorem feature_of_readTags {code raw keyword title : Text} {tags : List Tag}
    (hstandard : parser.catalogue.find? parser.catalogue.standard = some assumed)
    (hlanguage : parser.catalogue.find? code = some language) (hsingle : SingleLine raw)
    (hcontent : isRemark raw = false) (hplain : leads '@' (trim raw) = false)
    (hfits : language.keywords.header? .feature (trim raw) = some (keyword, title))
    (htags : readTags text = .ok tags) :
    (parser.withLanguage code).feature (text ++ '\n' :: raw) source =
      .ok (some ⟨source, language.code,
        .start ⟨keyword, title, (lines text).length + 1⟩ tags, []⟩) := by
  obtain ⟨rows, hrows, rfl⟩ : ∃ rows, (lines text).zipIdx.mapM readTagLine = .ok rows ∧
      rows.flatten = tags := by
    rw [readTags_eq] at htags
    cases hrows : (lines text).zipIdx.mapM readTagLine with
    | error failure => simp [hrows, Except.map] at htags
    | ok rows => exact ⟨rows, rfl, by simpa [hrows, Except.map] using htags⟩
  have hlines : lines (text ++ '\n' :: raw) = lines text ++ [raw] := by
    rw [lines_append_newline]
    congr 1
    exact splitWhen_eq_singleton hsingle.isSep
  have hread := feedAll_rows_header
    (s := Session.opening .feature parser.catalogue source assumed (some language)) rfl rfl hrows
    hcontent hplain hfits
  rw [feature_eq_map (session_withLanguage hstandard hlanguage), hlines, hread, Except.map,
    finishFeature_of_head rfl rfl rfl]
  simp [Session.opening, Session.language]

/-- A line of tags that is refused on its own is refused in front of a feature. -/
theorem feature_of_readTags_error {code more : Text} {failure : Failure}
    (hstandard : parser.catalogue.find? parser.catalogue.standard = some assumed)
    (hlanguage : parser.catalogue.find? code = some language)
    (hmore : more = [] ∨ leads '\n' more = true) (h : readTags text = .error failure)
    (hlead : ∀ shown ∈ failure.position.text, leads '@' shown = true) :
    (parser.withLanguage code).feature (text ++ more) source =
      .error { failure with position := { failure.position with source := source } } := by
  rw [readTags_eq, map_eq_error_iff] at h
  obtain ⟨others, hlines⟩ : ∃ others, lines (text ++ more) = lines text ++ others := by
    cases more with
    | nil => exact ⟨[], by simp⟩
    | cons c rest =>
      have hc : c = '\n' := by simpa [leads] using hmore
      exact ⟨lines rest, by rw [hc, lines_append_newline]⟩
  have hread := feedAll_of_badRow
    (s := Session.opening .feature parser.catalogue source assumed (some language)) rfl rfl h hlead
  rw [feature_eq_map (session_withLanguage hstandard hlanguage), map_eq_error_iff, hlines,
    feedAll_append, hread]
  rfl

/-- A text of tags and the beginning of a feature are read alike by the parser that
    is fixed to English: the tags of the text are the tags of the feature, with the
    same numbers of lines, and a line that starts with a tag fails for the same word
    in both. -/
theorem readTags_agrees (text : Text) (source : Option Text) :
    (∀ tags, readTags text = .ok tags → ∃ feature,
      (standard.withLanguage "en".toList).feature (text ++ "\nFeature: F".toList) source =
          .ok (some feature) ∧
        feature.top.tags = tags) ∧
    (∀ word line shown, readTags text = .error ⟨.badTag word, line, some shown, none⟩ →
      leads '@' shown = true →
      (standard.withLanguage "en".toList).feature text source =
          .error ⟨.badTag word, line, some shown, source⟩ ∧
        (standard.withLanguage "en".toList).feature (text ++ "\nFeature: F".toList) source =
          .error ⟨.badTag word, line, some shown, source⟩) := by
  have hstandard : standard.catalogue.find? standard.catalogue.standard =
      some ⟨"en".toList, Builtin.english⟩ := rfl
  have hlanguage : standard.catalogue.find? "en".toList =
      some ⟨"en".toList, Builtin.english⟩ := rfl
  refine ⟨?_, ?_⟩
  · intro tags htags
    have hheader : Builtin.english.header? .feature (trim "Feature: F".toList) =
        some ("Feature".toList, "F".toList) := rfl
    exact ⟨_, feature_of_readTags hstandard hlanguage (by decide) (by decide) (by decide) hheader
      htags, rfl⟩
  · intro word line shown hfailure hlead
    have hshown : ∀ t ∈ some shown, leads '@' t = true := by simpa using hlead
    refine ⟨?_, ?_⟩
    · rw [← List.append_nil text]
      exact feature_of_readTags_error hstandard hlanguage (.inl rfl) hfailure hshown
    · exact feature_of_readTags_error hstandard hlanguage (.inr rfl) hfailure hshown

/-- For instance lines that end in different ways, among comments of which one looks
    like a directive; and a word that is no tag behind tags that are. -/
theorem readTags_agrees_carriageReturns :
    (∃ tags feature,
      readTags "#language: de\r\n\r\n@a @b:2 # no\r\n @c".toList = .ok tags ∧
      (standard.withLanguage "en".toList).feature
          "#language: de\r\n\r\n@a @b:2 # no\r\n @c\nFeature: F".toList none = .ok (some feature) ∧
      feature.top.tags = tags ∧ tags.map (·.line) = [3, 3, 4]) ∧
    (standard.withLanguage "en".toList).feature "@a\r\n@b no # @c\r\n".toList none =
      .error ⟨.badTag "no".toList, 2, some "@b no # @c".toList, none⟩ := by
  have htags : ∃ tags, readTags "#language: de\r\n\r\n@a @b:2 # no\r\n @c".toList = .ok tags ∧
      tags.map (·.line) = [3, 3, 4] := ⟨_, rfl, by decide⟩
  obtain ⟨tags, hread, hnumbers⟩ := htags
  obtain ⟨feature, hfeature, hsame⟩ := (readTags_agrees _ none).1 tags hread
  refine ⟨⟨tags, feature, hread, hfeature, hsame, hnumbers⟩, ?_⟩
  exact ((readTags_agrees _ none).2 _ _ _ rfl rfl).1

end Parser

end Gherkin
