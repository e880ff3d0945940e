/-
  Gherkin/Proofs/RoundTrip/Rendering.lean
  =======================================
  **Reading what has been written.**

  A feature that was read and then written comes back when it is read again,
  on other lines but otherwise unchanged.  This holds for every language with
  clear keywords and for every feature but those with a docstring that neither
  fence can enclose.

  What the previous modules say of the nodes is put together here with what
  stands around them: a language directive in front of the feature, its tags
  and its header, and the empty line behind the last line feed.
-/
import Gherkin.Proofs.RoundTrip.Nodes
import Gherkin.Proofs.Session.TagText

namespace Gherkin

open Text

namespace Session

/-! ## 1. In front of the feature -/

/-- A session in front of the feature header, with the given language in force
    and the given tags waiting. -/
structure Awaits (language : Language) (source : Option Text) (tags : List Tag) (s : Session) :
    Prop where
  sound : s.Sound
  mode : s.mode = .start
  language : s.language = language
  source : s.source = source
  tags : s.tags.map (·.renumber unnumbered) = tags

variable {language : Language} {source : Option Text} {tags : List Tag} {s : Session} {raw : Text}

theorem Awaits.tagLine (h : s.Awaits language source []) (htags : ∀ tag ∈ tags, tag.FromWord)
    (hne : tags ≠ []) (hraw : trim raw = join ' ' (tags.map (·.written))) :
    ∃ t, s.feed raw = .ok t ∧
      t.Awaits language source (tags.map (·.renumber unnumbered)) := by
  have hlead : leads '@' (trim raw) = true := by
    obtain ⟨rest, hrest⟩ := leads_join_written hne
    rw [hraw, hrest]
    rfl
  have hrow : Tag.ofLine (s.line + 1) (trim raw) =
      .ok (tags.map fun tag => { tag with line := s.line + 1 }) := by
    rw [hraw]
    exact Tag.ofLine_join htags _
  have hfed := feed_tagLine h.mode hlead hrow
  refine ⟨_, hfed, h.sound.feed hfed, h.mode, h.language, h.source, ?_⟩
  rw [List.map_append, h.tags, List.map_map]
  rfl

/-- The header of the feature opens it. -/
theorem Awaits.featureHeader {header : Header} (h : s.Awaits language source tags)
    (hline : HeaderLine language.keywords .feature header raw) :
    ∃ t, s.feed raw = .ok t ∧ t.Holds language Mode.isHead
      ⟨.top ⟨source, language.code, .start (header.renumber unnumbered) tags, []⟩,
        .start (header.renumber unnumbered) tags, none, []⟩ := by
  have hplain : ∀ c ∈ signs, leads c (trim raw) = false :=
    fun c hc => leads_of_beginsPlainly hline.plain hc
  have hcontent : isRemark raw = false := by
    simp [isRemark, ne_nil_of_beginsPlainly hline.plain, hplain '#' (by decide)]
  have hfits : s.keywords.header? .feature (trim raw) = some (header.keyword, header.title) := by
    unfold Session.keywords
    rw [h.language]
    exact hline.own
  obtain ⟨hentry, -, hrule, hstatement⟩ : s.entry = .feature ∧ s.feature = none ∧
      s.rule = none ∧ s.statement = none := by
    simpa [ModeFits, h.mode] using h.sound.mode
  have hfed := feed_featureHeader h.mode hcontent (hplain '@' (by decide)) hfits
  refine ⟨_, hfed, h.sound.feed hfed, ?_⟩
  rw [closeTable_of_left rfl]
  refine ⟨hentry, congrArg some h.language, rfl, rfl, ?_, ?_, ?_⟩
  · rw [Option.map_some, h.source, h.language, ← h.tags]
    rfl
  · simp [hrule, Place.rule]
  · simp [hstatement]

/-- A directive in front of the feature puts its language in force, unless
    another one is fixed. -/
theorem feed_directive {code : Text} (hmode : s.mode = .start) (htags : s.tags = [])
    (hentry : s.entry = .feature) (hlead : leads '#' (trim raw) = true)
    (hdirective : Gherkin.directive? (trim raw) = some code)
    (hknown : s.fixed = true ∧ s.chosen = some language ∨
      s.fixed = false ∧ s.catalogue.find? code = some language) :
    s.feed raw = .ok { s with line := s.line + 1, chosen := some language } := by
  have hhead : s.AtHead := ⟨hentry, hmode, htags⟩
  rw [hhead.feed_directive (isRemark_eq_true_iff.mpr (.inr hlead)) hdirective]
  rcases hknown with ⟨hfixed, hchosen⟩ | ⟨hfree, hfind⟩
  · simp [hfixed, hchosen]
  · simp [hfree, hfind]

/-- A directive is a comment and names its language again. -/
theorem directive?_directive {code : Text} (hne : code ≠ []) (hcode : Trimmed code) :
    leads '#' (trim (Printer.directive code)) = true ∧
      Gherkin.directive? (trim (Printer.directive code)) = some code := by
  have hspace : ∀ c ∈ [' '], isBlank c = true := isBlank_of_mem_replicate (n := 1)
  have hwritten : Printer.directive code = '#' :: ([' '] ++ (directiveWord ++ ([' '] ++ code))) := by
    have hmark : "# language: ".toList = '#' :: ([' '] ++ (directiveWord ++ [' '])) := by decide
    unfold Printer.directive
    rw [hmark, List.cons_append, List.append_assoc, List.append_assoc]
  have htrimmed : Trimmed (Printer.directive code) :=
    ⟨solidStart_cons.mpr (by decide), hcode.2.append hne⟩
  have hbody : Trimmed (directiveWord ++ ([' '] ++ code)) :=
    ⟨(by decide : SolidStart directiveWord).append (by decide),
      (hcode.2.append hne).append (by simp)⟩
  rw [trim_eq_self htrimmed, hwritten]
  refine ⟨rfl, ?_⟩
  have hcomment : ∀ t : Text, ('#' :: ([' '] ++ t)).dropWhile (· == '#') = [' '] ++ t :=
    fun _ => rfl
  have hsame : sameWord directiveWord directiveWord = true := by decide
  rw [Gherkin.directive?, hcomment, trim_append_of_blank hspace, trim_eq_self hbody]
  simp only [List.take_left, List.drop_left, hsame, if_true]
  rw [trim_append_of_blank hspace, trim_eq_self hcode]

theorem singleLine_directive {code : Text} (hcode : SingleLine code) :
    SingleLine (Printer.directive code) :=
  SingleLine.append (by decide) hcode

theorem trimmed_clearCodes : ∀ code ∈ Builtin.clearCodes,
    code ≠ [] ∧ Trimmed code ∧ SingleLine code := by
  decide +kernel

/-- In front of a written feature stands what puts its language in force, unless
    the language is in force anyway. -/
theorem reads_directive {standard : Language} {chosen : Option Language}
    (hstandard : Builtin.catalogue.find? Builtin.standard = some standard)
    (hfind : Builtin.catalogue.find? language.code = some language)
    (hcode : language.code ∈ Builtin.clearCodes)
    (hchosen : chosen = none ∨ chosen = some language) :
    Reads (fun s => s = opening .feature Builtin.catalogue source standard chosen)
      (if language.code = Builtin.standard then [] else [Printer.directive language.code])
      (Awaits language source []) := by
  have hsound := Sound.opening .feature Builtin.catalogue source standard chosen
  split
  · rename_i hsame
    have hlanguage : standard = language := by
      rw [hsame, hstandard] at hfind
      exact Option.some.inj hfind
    refine Reads.nil ?_
    rintro s rfl
    refine ⟨hsound, rfl, ?_, rfl, rfl⟩
    rcases hchosen with rfl | rfl
    · exact hlanguage
    · rfl
  · obtain ⟨hne, htrimmed, hsingle⟩ := trimmed_clearCodes language.code hcode
    obtain ⟨hcomment, hdirective⟩ := directive?_directive hne htrimmed
    refine Reads.line (singleLine_directive hsingle) ?_
    rintro s rfl
    have hknown : chosen.isSome = true ∧ chosen = some language ∨
        chosen.isSome = false ∧ Builtin.catalogue.find? language.code = some language := by
      rcases hchosen with rfl | rfl
      · exact .inr ⟨rfl, hfind⟩
      · exact .inl ⟨rfl, rfl⟩
    have hfeed := feed_directive (s := opening .feature Builtin.catalogue source standard chosen)
      rfl rfl rfl hcomment hdirective hknown
    exact ⟨_, hfeed, hsound.feed hfeed, rfl, rfl, rfl, rfl⟩

/-! ## 2. The whole feature -/

section Attested

variable {src : Source} {feature : Feature}

/-- The written tags of a feature wait for its header. -/
theorem reads_awaitedTags {tags : List Tag} (hwords : ∀ tag ∈ tags, tag.FromWord) (depth : Nat) :
    Reads (Awaits language source []) (Printer.block depth (Printer.tagLine tags))
      (Awaits language source (tags.map (·.renumber unnumbered))) := by
  refine Reads.tagLine hwords ?_ ?_ depth
  · rintro rfl s hs
    exact hs
  · intro hne s raw hs hraw
    exact hs.tagLine hwords hne hraw

/-- The tags and the header of a written feature open it. -/
theorem reads_opening (hsrc : ∀ n raw, src n raw → SingleLine raw)
    (hclear : language.keywords.Clear) {header : Header} {tags : List Tag}
    (hheader : header.Attested src language.keywords .feature)
    (htags : ∀ tag ∈ tags, tag.Attested src) (depth : Nat) :
    Reads (Awaits language source [])
      (Printer.block depth (Printer.tagLine tags) ++
        [Printer.indent depth (Printer.header header)])
      (Holds language Mode.isHead
        ⟨.top ⟨source, language.code,
            .start (header.renumber unnumbered) (tags.map (·.renumber unnumbered)), []⟩,
          .start (header.renumber unnumbered) (tags.map (·.renumber unnumbered)), none, []⟩) := by
  have hwords : ∀ tag ∈ tags, tag.FromWord := fun tag htag => (htags tag htag).fromWord
  refine (reads_awaitedTags hwords depth).append (Reads.header hsrc hclear hheader (by decide) depth ?_)
  intro s raw hs hopens
  exact hs.featureHeader hopens

/-- A written feature comes back. -/
theorem reads_feature (hsrc : ∀ n raw, src n raw → SingleLine raw)
    (hclear : language.keywords.Clear) (h : feature.Attested src language.keywords)
    (hcode : feature.language = language.code)
    (hquotable : ∀ step ∈ feature.steps, step.Quotable) :
    Reads (Awaits language feature.source [])
      (Printer.group 0 1 feature.top ++ feature.rules.flatMap (Printer.group 1 2))
      (HoldsFeature language (feature.renumber unnumbered)) := by
  have hsteps : ∀ group ∈ feature.groups, ∀ step ∈ group.steps, step.Quotable := by
    intro group hgroup step hstep
    exact hquotable step (List.mem_flatMap.mpr ⟨group, hgroup, hstep⟩)
  have htop : Reads (Awaits language feature.source []) (Printer.group 0 1 feature.top)
      (HoldsFeature language { feature.renumber unnumbered with rules := [] }) := by
    rw [group_eq_append]
    refine ((reads_opening hsrc hclear h.header h.top.tags 0).append
      (reads_groupBody hsrc hclear h.top (hsteps _ List.mem_cons_self) 1)).mono ?_
    intro s hs
    refine ⟨_, _, hs, ?_⟩
    rw [← hcode]
    rfl
  exact htop.append (reads_rules hsrc hclear h.rules
    (fun rule hrule => hsteps rule (List.mem_cons_of_mem _ hrule)) 1 2)

end Attested

/-! ## 3. The end of the text -/

theorem HoldsFeature.blank {feature : Feature} (h : s.HoldsFeature language feature) :
    ∃ t, s.feed [] = .ok t ∧ t.HoldsFeature language feature := by
  obtain ⟨place, group, ⟨opened, open?, hs, hclosed⟩, hfinish⟩ := h
  have hskips : s.skips [] = true := by
    have hmode := hs.shows.mode
    rw [closeTable_eq] at hmode
    unfold skips inDocstring
    cases hm : s.mode <;> simp_all [Mode.left, Mode.isOpen, trim, trimStart, trimEnd]
  have hfeed : s.feed [] = .ok (s.enter []) := by
    rw [Session.feed_eq, hskips]
    rfl
  refine ⟨_, hfeed, place, group, ⟨opened, open?, ?_, hclosed⟩, hfinish⟩
  exact ⟨hs.sound.feed hfeed, hs.shows.closeTable_enter []⟩

/-- The feature that has been read is handed over at the end. -/
theorem HoldsFeature.finishFeature {feature : Feature} (h : s.HoldsFeature language feature) :
    ∃ again, s.finishFeature = some again ∧ again.renumber unnumbered = feature := by
  obtain ⟨place, group, ⟨opened, open?, hs, rfl⟩, rfl⟩ := h
  exact Option.map_eq_some_iff.mp hs.shows.closeStatement.feature_closeRule

end Session

/-! ## 4. The round trip -/

namespace Parser

/-- A feature that has been read and written is read again by the same parser,
    and it differs in the numbers of its lines at most. -/
theorem feature_render {parser : Parser} (hcatalogue : parser.catalogue = Builtin.catalogue)
    {text : Text} {source : Option Text} {feature : Feature}
    (h : parser.feature text source = .ok (some feature))
    (hlanguage : feature.language ∈ Builtin.clearCodes)
    (hdocstrings : ∀ docstring ∈ feature.docstrings, ¬docstring.Unrepresentable) :
    ∃ again, parser.feature feature.render source = .ok (some again) ∧
      again.EqualUpToLines feature := by
  obtain ⟨keywords, hlookup, hattested, hsource, hfixed⟩ := attested_of_feature h
  obtain ⟨s, t, hsession, -, -⟩ := feature_eq_ok h
  obtain ⟨standard, hstandard, hknown, hs⟩ := Session.session_eq_ok_iff.mp hsession
  rw [hcatalogue] at hlookup hstandard hknown hs
  have hclear : keywords.Clear := Builtin.clear hlanguage hlookup
  have hfind : Builtin.catalogue.find? feature.language = some ⟨feature.language, keywords⟩ := by
    simp [Catalogue.find?, hlookup]
  have hsrc : ∀ n raw, Source.ofLines (lines text) n raw → SingleLine raw := by
    rintro n raw ⟨-, hraw⟩
    exact singleLine_of_mem_lines (List.mem_of_getElem? hraw)
  have hquotable : ∀ step ∈ feature.steps, step.Quotable := by
    intro step hstep docstring hdocstring
    exact hdocstrings docstring (List.mem_filterMap.mpr ⟨step, hstep, hdocstring⟩)
  -- A fixed language is that of the feature, so it does not matter that the
  -- directive is passed over.
  have hchosen : parser.language.bind Builtin.catalogue.find? = none ∨
      parser.language.bind Builtin.catalogue.find? = some ⟨feature.language, keywords⟩ := by
    cases hparser : parser.language with
    | none => exact .inl rfl
    | some code => exact .inr (by rw [Option.bind_some, ← hfixed code hparser, hfind])
  have hreads : Reads
      (fun s => s = Session.opening .feature Builtin.catalogue source standard
        (parser.language.bind Builtin.catalogue.find?))
      (Printer.feature feature)
      (Session.HoldsFeature ⟨feature.language, keywords⟩ (feature.renumber unnumbered)) := by
    unfold Printer.feature
    rw [List.append_assoc, ← hsource]
    exact (Session.reads_directive hstandard hfind hlanguage hchosen).append
      (Session.reads_feature hsrc hclear hattested rfl hquotable)
  -- Behind the last line feed there is one more line, which is empty.
  have hlines : lines feature.render = Printer.feature feature ++ [[]] :=
    lines_flatMap_newline hreads.single
  obtain ⟨final, hrun, hfinal⟩ :=
    (hreads.append (Reads.line singleLine_nil fun _ hs => hs.blank)).run s hs
  obtain ⟨again, hfinish, hagain⟩ := hfinal.finishFeature
  refine ⟨again, ?_, hagain⟩
  rw [← hlines] at hrun
  simp [Parser.feature, Parser.read, hsession, hrun, hfinish, bind, Except.bind, Except.map]

set_option maxRecDepth 1000 in
/-- For instance in German, with a row in a description, an escaped pipe, a
    docstring that only one fence can enclose, and a step behind the Examples. -/
theorem feature_render_german :
    ∃ feature again,
      standard.feature (join '\n' (Builtin.texts
          ["# language: de", "@a", "Funktion: F", "| x |", "Regel: R",
          "Szenarien: S", "Wenn b:", "| y \\| z |", "Dann c", "\x27\x27\x27", "\"\"\"",
          "\x27\x27\x27", "Beispiele:", "| v |", "* d"])) none =
        .ok (some feature) ∧
        feature.language = "de".toList ∧ feature.steps.length = 3 ∧ feature.tables.length = 2 ∧
        feature.docstrings.map (·.value) = [Fence.double.mark] ∧
        standard.feature feature.render none = .ok (some again) ∧
        again.EqualUpToLines feature := by
  have hread : ∃ feature,
      standard.feature (join '\n' (Builtin.texts
          ["# language: de", "@a", "Funktion: F", "| x |", "Regel: R",
          "Szenarien: S", "Wenn b:", "| y \\| z |", "Dann c", "\x27\x27\x27", "\"\"\"",
          "\x27\x27\x27", "Beispiele:", "| v |", "* d"])) none =
        .ok (some feature) ∧
        feature.language = "de".toList ∧ feature.steps.length = 3 ∧ feature.tables.length = 2 ∧
        feature.docstrings.map (·.value) = [Fence.double.mark] := ⟨_, rfl, rfl, rfl, rfl, rfl⟩
  obtain ⟨feature, hfeature, hlanguage, hsteps, htables, hvalues⟩ := hread
  have hdocstrings : ∀ docstring ∈ feature.docstrings, ¬docstring.Unrepresentable := by
    intro docstring hmem
    have hvalue : docstring.value = Fence.double.mark := by
      have hmapped := List.mem_map_of_mem (f := (·.value)) hmem
      rw [hvalues] at hmapped
      exact List.mem_singleton.mp hmapped
    unfold Docstring.Unrepresentable
    rw [hvalue]
    decide
  obtain ⟨again, hagain, hequal⟩ :=
    feature_render rfl hfeature (by rw [hlanguage]; decide) hdocstrings
  exact ⟨feature, again, hfeature, hlanguage, hsteps, htables, hvalues, hagain, hequal⟩

end Parser

end Gherkin
