/-
  Gherkin/Proofs/Session/Faithfulness.lean
  ========================================
  **Every node of a feature stands in its text.**

  Nodes are created at one line, moved between slots later and changed again
  when an argument is attached.  None of this mixes up the lines: one line
  keeps `Session.Attested` if it is in the source under its number
  (`Attested.feed`), so every reading does (`Attested.feedAll`), and the
  feature that comes out is attested by the lines of the text
  (`Parser.attested_of_feature`).

  `Feature.FaithfulTo` spells out what that means for headers, steps, tables and
  tags.
-/
import Gherkin.Proofs.Session.Coherence
import Gherkin.Proofs.Tree.Attestation

namespace Gherkin

open Text

/-- Everything that a session has read is attested.  A fragment has no header of
    its own, so the outermost node of a fragment is exempt. -/
structure Session.Attested (src : Source) (s : Session) : Prop where
  standard : s.catalogue.find? s.standard.code = some s.standard
  chosen : ∀ language, s.chosen = some language →
    s.catalogue.find? language.code = some language
  tags : ∀ tag ∈ s.tags, tag.Attested src
  mode : s.mode.Attested src
  statement : ∀ statement, s.statement = some statement →
    statement.BodyAttested src s.keywords ∧
      (s.entry ≠ .steps → statement.HeaderAttested src s.keywords)
  rule : ∀ rule, s.rule = some rule →
    rule.BodyAttested src s.keywords ∧
      (s.entry ≠ .rule → rule.header.Attested src s.keywords .rule)
  feature : ∀ feature, s.feature = some feature →
    feature.Attested src s.keywords ∧ feature.language = s.language.code ∧
      feature.source = s.source

namespace Session

variable {src : Source}

/-! ## 1. One line -/

theorem Attested.language {s : Session} (h : s.Attested src) :
    s.catalogue.find? s.language.code = some s.language := by
  unfold Session.language
  cases hchosen : s.chosen with
  | none => exact h.standard
  | some language => exact h.chosen language hchosen

/-- The language may change while no node depends on it. -/
theorem Attested.withLanguage {s : Session} (h : s.Attested src) {line : Nat}
    {chosen : Option Language}
    (hchosen : ∀ language, chosen = some language →
      s.catalogue.find? language.code = some language)
    (hsame : chosen.getD s.standard = s.language ∨
      s.feature = none ∧ s.rule = none ∧ s.statement = none) :
    Attested src { s with line := line, chosen := chosen } := by
  rcases hsame with hsame | ⟨hfeature, hrule, hstatement⟩
  · have hkeywords : Session.keywords { s with line := line, chosen := chosen } = s.keywords := by
      unfold Session.keywords Session.language
      exact congrArg Language.keywords hsame
    refine ⟨h.standard, hchosen, h.tags, h.mode, ?_, ?_, ?_⟩
    · rw [hkeywords]; exact h.statement
    · rw [hkeywords]; exact h.rule
    · rw [hkeywords]
      unfold Session.language
      rw [show (Session.chosen { s with line := line, chosen := chosen }).getD
        (Session.standard { s with line := line, chosen := chosen }) = s.language from hsame]
      exact h.feature
  · refine ⟨h.standard, hchosen, h.tags, h.mode, ?_, ?_, ?_⟩
    · simp [hstatement]
    · simp [hrule]
    · simp [hfeature]

theorem Attested.rests {s t : Session} (h : s.Attested src) (hsound : s.Sound)
    (hrests : s.Rests t) : t.Attested src := by
  obtain ⟨chosen, rfl, hchosen⟩ := hrests
  rcases hchosen with rfl | ⟨hstart, -, language, rfl, hfind⟩
  · exact h.withLanguage h.chosen (.inl rfl)
  · have hmode := hsound.mode
    rw [ModeFits, hstart] at hmode
    refine h.withLanguage ?_ (.inr hmode.2)
    intro other hother
    rw [Option.some.injEq] at hother
    exact hother ▸ hfind

theorem Attested.enter {s : Session} (h : s.Attested src) (raw : Text) :
    (s.enter raw).Attested src := by
  unfold Session.enter
  split
  · refine h.withLanguage ?_ (.inl rfl)
    intro language hlanguage
    rw [Option.some.injEq] at hlanguage
    exact hlanguage ▸ h.language
  · exact h.withLanguage h.chosen (.inl rfl)

/-- A change of the open statement that keeps what is attested of it. -/
theorem Attested.change {s : Session} (h : s.Attested src) {f : Statement → Statement}
    {mode : Mode} {tags : List Tag} {lastType : Option StepType}
    (hbody : ∀ statement, s.statement = some statement →
      statement.BodyAttested src s.keywords → (f statement).BodyAttested src s.keywords)
    (hheader : ∀ statement, (f statement).HeaderAttested src s.keywords ↔
      statement.HeaderAttested src s.keywords)
    (htags : ∀ tag ∈ tags, tag.Attested src) (hmode : mode.Attested src) :
    Attested src { s with
      statement := s.statement.map f, mode := mode, tags := tags, lastType := lastType } := by
  refine ⟨h.standard, h.chosen, htags, hmode, ?_, h.rule, h.feature⟩
  intro statement hstatement
  obtain ⟨old, hold, rfl⟩ := Option.map_eq_some_iff.mp hstatement
  obtain ⟨hold_body, hold_header⟩ := h.statement old hold
  exact ⟨hbody old hold hold_body, fun hentry => (hheader old).mpr (hold_header hentry)⟩

theorem Attested.closeTable {s : Session} (h : s.Attested src) : s.closeTable.Attested src := by
  have hmode := h.mode
  cases hs : s.mode with
  | examples table =>
    rw [closeTable_eq, hs]
    refine h.change ?_ (by simp [Mode.attach]) h.tags trivial
    intro statement _ hbody
    refine hbody.mapBlocks fun blocks hblocks => forall_mem_mapLast ?_ hblocks
    intro block hblock
    refine ⟨hblock.header, hblock.tags, ?_⟩
    rintro other rfl
    rw [hs] at hmode
    exact hmode
  | stepTable table =>
    rw [closeTable_eq, hs]
    refine h.change ?_ (by simp [Mode.attach]) h.tags trivial
    intro statement _ hbody
    rw [hs] at hmode
    exact hbody.mapLastStep fun last step hstep => hstep.withTable hmode
  | _ =>
    have hsame : s.closeTable = s := by simp [Session.closeTable, hs]
    rw [hsame]
    exact h

theorem Attested.facing {s : Session} (h : s.Attested src) (raw : Text) :
    (s.facing raw).Attested src :=
  facing_cases s raw (h.enter raw) (h.enter raw).closeTable

/-- A change of the current group that keeps what is attested of it. -/
theorem Attested.mapGroup {s : Session} (h : s.Attested src) {f : Group → Group}
    (hbody : ∀ group : Group, group.BodyAttested src s.keywords →
      (f group).BodyAttested src s.keywords)
    (hheader : ∀ group : Group, (f group).header = group.header) :
    (s.mapGroup f).Attested src := by
  rw [mapGroup_eq]
  refine ⟨h.standard, h.chosen, h.tags, h.mode, h.statement, ?_, ?_⟩
  · intro rule hrule
    obtain ⟨old, hold, rfl⟩ := Option.map_eq_some_iff.mp hrule
    obtain ⟨hold_body, hold_header⟩ := h.rule old hold
    exact ⟨hbody old hold_body, fun he => (hheader old).symm ▸ hold_header he⟩
  · intro feature hfeature
    simp only at hfeature
    split at hfeature
    · exact h.feature feature hfeature
    · obtain ⟨old, hold, rfl⟩ := Option.map_eq_some_iff.mp hfeature
      obtain ⟨hattested, hlanguage, hsource⟩ := h.feature old hold
      refine ⟨⟨?_, hbody _ hattested.top, hattested.rules⟩, hlanguage, hsource⟩
      rw [hheader]
      exact hattested.header

/-- A statement with an attested header goes into its group attested. -/
theorem Attested.closeStatement {s : Session} (h : s.Attested src) (hentry : s.entry ≠ .steps) :
    s.closeStatement.Attested src := by
  unfold Session.closeStatement
  cases hstatement : s.statement with
  | none => exact h
  | some statement =>
    obtain ⟨hbody, hheader⟩ := h.statement statement hstatement
    have hclosed : (s.mapGroup (·.close statement)).Attested src := by
      refine h.mapGroup (fun group hgroup => hgroup.close hbody (hheader hentry)) ?_
      intro group
      cases statement <;> rfl
    exact { hclosed with statement := by simp }

theorem Attested.closeRule {s : Session} (h : s.Attested src) (hentry : s.entry ≠ .rule) :
    s.closeRule.Attested src := by
  rw [closeRule_eq]
  refine ⟨h.standard, h.chosen, h.tags, h.mode, h.statement, by simp, ?_⟩
  intro feature hfeature
  obtain ⟨old, hold, rfl⟩ := Option.map_eq_some_iff.mp hfeature
  obtain ⟨hattested, hlanguage, hsource⟩ := h.feature old hold
  refine ⟨⟨hattested.header, hattested.top, ?_⟩, hlanguage, hsource⟩
  intro rule hrule
  rcases List.mem_append.mp hrule with hrule | hrule
  · exact hattested.rules rule hrule
  · obtain ⟨hbody, hheader⟩ := h.rule rule (Option.mem_toList.mp hrule)
    exact ⟨hheader hentry, hbody⟩

theorem header_attested {s : Session} {category : Category} {raw : Text} {header : Header}
    (hraw : src s.line raw) (h : s.header? category raw = some header) :
    header.Attested src s.keywords category := by
  obtain ⟨hheader, hline⟩ := keywords_header?_of_header? h
  exact ⟨raw, hline ▸ hraw, hheader⟩

theorem tag_attested {n : Nat} {raw : Text} {tags : List Tag} {tag : Tag}
    (hraw : src n raw) (hrow : Tag.ofLine n (trim raw) = .ok tags) (htag : tag ∈ tags) :
    tag.Attested src := by
  obtain ⟨name, hname, heq⟩ := Tag.mem_of_ofWords hrow htag
  have hline : tag.line = n := by
    rw [heq]
    unfold Tag.ofWord
    split <;> rfl
  refine ⟨raw, name, hline ▸ hraw, ?_, hline ▸ heq⟩
  rwa [words_trim] at hname

theorem Sound.entry_ne_steps {s : Session} (h : s.Sound) (hgroup : s.group?.isSome = true) :
    s.entry ≠ .steps := by
  intro he
  have hentry := h.entry
  rw [EntryFits, he] at hentry
  simp [group?, hentry.1, hentry.2.1] at hgroup

theorem Sound.entry_eq_feature {s : Session} (h : s.Sound) (hfeature : s.feature.isSome = true) :
    s.entry = .feature := by
  have hentry := h.entry
  unfold EntryFits at hentry
  cases he : s.entry with
  | feature => rfl
  | rule => simp [he, Option.isSome_iff_ne_none.mp hfeature] at hentry
  | steps => simp [he, Option.isSome_iff_ne_none.mp hfeature] at hentry

/-- Taking a line that is in the source keeps everything attested. -/
theorem Attested.takes {s t : Session} {raw : Text} {kind : LineKind} (h : s.Attested src)
    (hsound : s.Sound) (hraw : src s.line raw) (hvisible : s.inDocstring = false →
      trim raw ≠ [] ∧ leads '#' (trim raw) = false)
    (htakes : Takes s raw kind t) : t.Attested src := by
  cases htakes with
  | tags hs hlead hrow =>
    refine ⟨h.standard, h.chosen, ?_, ?_, h.statement, h.rule, h.feature⟩
    · intro tag htag
      rcases List.mem_append.mp htag with htag | htag
      · exact h.tags tag htag
      · exact tag_attested hraw hrow htag
    · simp only
      split <;> trivial
  | feature hs hfits =>
    have hmode := hsound.mode
    rw [ModeFits, hs] at hmode
    obtain ⟨-, -, hrule, hstatement⟩ := hmode
    refine ⟨h.standard, h.chosen, by simp, trivial, h.statement, h.rule, ?_⟩
    intro feature hfeature
    rw [Option.some.injEq] at hfeature
    subst hfeature
    exact ⟨⟨header_attested hraw hfits, .start h.tags, by simp⟩, rfl, rfl⟩
  | rule hs hfits hfeature =>
    have he := hsound.entry_eq_feature hfeature
    have hclosed := (h.closeStatement (by simp [he])).closeRule (by
      rw [closeStatement_eq]
      simp [he])
    have hkeywords : s.closeStatement.closeRule.keywords = s.keywords := by
      rw [closeStatement_eq, closeRule_eq]
      rfl
    refine ⟨hclosed.standard, hclosed.chosen, by simp, trivial, hclosed.statement, ?_,
      hclosed.feature⟩
    intro rule hrule
    rw [Option.some.injEq] at hrule
    subst hrule
    refine ⟨.start h.tags, fun _ => ?_⟩
    have hheader := header_attested hraw hfits
    rw [← hkeywords] at hheader
    exact hheader
  | @scenario header category blocks hs hknown hfits hgroup =>
    have hclosed := h.closeStatement (hsound.entry_ne_steps hgroup)
    have hkeywords : s.closeStatement.keywords = s.keywords := by
      rw [closeStatement_eq]
      rfl
    refine ⟨hclosed.standard, hclosed.chosen, by simp, trivial, ?_, hclosed.rule,
      hclosed.feature⟩
    intro statement hstatement
    rw [startStatement_eq, Option.some.injEq] at hstatement
    subst hstatement
    have hheader := header_attested hraw hfits
    rw [← hkeywords] at hheader
    refine ⟨⟨h.tags, by simp [StatementDescribed], trivial, ?_⟩, fun _ => ?_⟩
    · rcases hknown with ⟨-, rfl⟩ | ⟨-, rfl⟩ <;> simp
    · rcases hknown with ⟨rfl, rfl⟩ | ⟨rfl, rfl⟩ <;> exact hheader
  | examples hs hfits houtline =>
    refine h.change ?_ (by simp) (by simp) trivial
    intro statement _ hbody
    refine hbody.mapBlocks fun blocks hblocks block hblock => ?_
    rcases List.mem_append.mp hblock with hblock | hblock
    · exact hblocks block hblock
    · rw [List.mem_singleton.mp hblock]
      exact ⟨header_attested hraw hfits, h.tags, by simp⟩
  | background hs hfits htags hfresh =>
    obtain ⟨-, hstatement, hgroup⟩ := hsound.mode.head hs
    have hsame : s.closeStatement = s := by simp [Session.closeStatement, hstatement]
    rw [startStatement_eq, hsame]
    refine ⟨h.standard, h.chosen, h.tags, trivial, ?_, h.rule, h.feature⟩
    intro statement hstatement
    rw [Option.some.injEq] at hstatement
    subst hstatement
    exact ⟨⟨by simp [StatementDescribed], trivial⟩, fun _ => header_attested hraw hfits⟩
  | groupDescription hs htagless hplain =>
    have hdoc : s.inDocstring = false := by
      rcases hs with hs | hs <;> simp [inDocstring, hs]
    have hline : Described src s.keywords (.background :: taggableCategories) (trim raw) :=
      ⟨⟨s.line, raw, hraw, rfl⟩, ⟨(hvisible hdoc).1, (hvisible hdoc).2, htagless⟩, hplain⟩
    exact h.mapGroup (fun group hgroup => hgroup.describe hline) fun _ => rfl
  | statementDescription hs htagless hstepless hplain =>
    have hdoc : s.inDocstring = false := by
      rcases hs with hs | hs <;> simp [inDocstring, hs]
    refine h.change ?_ (by simp) h.tags h.mode
    intro statement _ hbody
    exact hbody.describe ⟨⟨⟨s.line, raw, hraw, rfl⟩,
      ⟨(hvisible hdoc).1, (hvisible hdoc).2, htagless⟩, hplain⟩, hstepless⟩
  | @step found type hs hfits hresolved =>
    refine h.change ?_ (by simp) h.tags trivial
    intro statement hstatement hbody
    have hlast : s.lastType = statement.lastType := by
      rw [hsound.lastType, hstatement]
      rfl
    refine hbody.addStep ⟨⟨raw, found, hraw, hfits, rfl, hlast ▸ hresolved, rfl⟩, ?_, ?_⟩
    · simp
    · simp
  | fence hs hfits hsteps => exact { h with mode := Block.Attested.start hraw hfits }
  | closingFence hs hcloses =>
    refine h.change ?_ (by simp) h.tags trivial
    have hblock := h.mode
    rw [hs] at hblock
    intro statement _ hbody
    exact hbody.mapLastStep fun last step hstep => hstep.withDocstring ⟨_, hblock, rfl⟩
  | docstring hs hinside hpush =>
    have hblock := h.mode
    rw [hs] at hblock
    exact { h with mode := Block.Attested.push hblock hraw hpush }
  | firstRow hs hlead hsteps => exact { h with mode := Table.Attested.start hraw }
  | examplesHeadings hs => exact { h with mode := Table.Attested.start hraw }
  | examplesRow hs hpush =>
    have htable := h.mode
    rw [hs] at htable
    exact { h with mode := Table.Attested.push htable hraw hpush }
  | nextRow hs hpush =>
    have htable := h.mode
    rw [hs] at htable
    exact { h with mode := Table.Attested.push htable hraw hpush }

/-- A line of the source keeps everything attested. -/
theorem Attested.feed {s t : Session} {raw : Text} (h : s.Attested src) (hsound : s.Sound)
    (hraw : src (s.line + 1) raw) (hfeed : s.feed raw = .ok t) : t.Attested src := by
  rcases feed_cases hfeed with ⟨-, hrests⟩ | ⟨hskips, hcomment, kind, -, htakes⟩
  · exact h.rests hsound hrests
  · refine (h.facing raw).takes (hsound.facing raw) (by simpa using hraw) ?_ htakes
    intro hdoc
    rw [facing_inDocstring] at hdoc
    exact ⟨by simpa [skips, hdoc] using hskips, by simpa [isComment, hdoc] using hcomment⟩

/-! ## 2. Every reading -/

/-- Reading lines of the source keeps everything attested. -/
theorem Attested.feedAll {s t : Session} {raws : List Text} (h : s.Attested src)
    (hsound : s.Sound) (hraws : ∀ i raw, raws[i]? = some raw → src (s.line + 1 + i) raw)
    (hfeed : s.feedAll raws = .ok t) : t.Attested src := by
  let P (u : Session) (rest : List Text) : Prop :=
    u.Attested src ∧ u.Sound ∧ ∀ i raw, rest[i]? = some raw → src (u.line + 1 + i) raw
  have hP : P t [] := by
    refine feedAll_induction (P := P) hfeed ⟨h, hsound, hraws⟩ ?_
    intro u raw rest next hu hnext
    obtain ⟨hattested, hsound, hraws⟩ := hu
    have hline := (feed_setup hnext).2
    refine ⟨hattested.feed hsound (hraws 0 raw rfl) hnext, hsound.feed hnext, ?_⟩
    intro i other hother
    have := hraws (i + 1) other hother
    rw [hline]
    rwa [show u.line + 1 + 1 + i = u.line + 1 + (i + 1) by omega]
  exact hP.1

end Session

/-- The lines of a text as a source: they are counted from one. -/
def Source.ofLines (raws : List Text) : Source := fun n raw => n ≠ 0 ∧ raws[n - 1]? = some raw

namespace Parser

theorem map_eq_ok {α β γ : Type} {f : α → β} {answer : Except γ α} {b : β}
    (h : answer.map f = .ok b) : ∃ a, answer = .ok a ∧ f a = b := by
  cases answer with
  | error failure => simp [Except.map] at h
  | ok a => exact ⟨a, rfl, by simpa [Except.map] using h⟩

theorem read_eq_ok {parser : Parser} {entry : Entry} {text : Text} {source : Option Text}
    {t : Session} (h : parser.read entry text source = .ok t) :
    ∃ s, parser.session entry source = .ok s ∧ s.feedAll (lines text) = .ok t := by
  unfold Parser.read at h
  cases hsession : parser.session entry source with
  | error failure => simp [hsession, bind, Except.bind] at h
  | ok s =>
    rw [hsession] at h
    exact ⟨s, rfl, h⟩

theorem feature_eq_ok {parser : Parser} {text : Text} {source : Option Text}
    {result : Option Feature} (h : parser.feature text source = .ok result) :
    ∃ s t, parser.session .feature source = .ok s ∧ s.feedAll (lines text) = .ok t ∧
      t.finishFeature = result := by
  obtain ⟨t, hread, hfinish⟩ := map_eq_ok h
  obtain ⟨s, hsession, hfeed⟩ := read_eq_ok hread
  exact ⟨s, t, hsession, hfeed, hfinish⟩

theorem attested_of_session {parser : Parser} {entry : Entry} {source : Option Text}
    {s : Session} (src : Source) (h : parser.session entry source = .ok s) :
    s.Attested src := by
  obtain ⟨standard, hstandard, -, rfl⟩ := Session.session_eq_ok_iff.mp h
  constructor
  · rw [← (Session.find?_code hstandard).1] at hstandard
    exact hstandard
  · intro language hlanguage
    obtain ⟨code, hcode, hfind⟩ := Option.bind_eq_some_iff.mp hlanguage
    rw [← (Session.find?_code hfind).1] at hfind
    exact hfind
  · simp [Session.opening]
  · cases entry <;> trivial
  · cases entry with
    | steps =>
      simp only [Session.opening, if_true, Option.some.injEq, forall_eq']
      exact ⟨⟨by simp, by simp [StatementDescribed], trivial, by simp⟩,
        fun hentry => absurd rfl hentry⟩
    | _ => simp [Session.opening]
  · cases entry with
    | rule =>
      simp only [Session.opening, if_true, Option.some.injEq, forall_eq']
      exact ⟨.start (by simp), fun hentry => absurd rfl hentry⟩
    | _ => simp [Session.opening]
  · simp [Session.opening]

/-- Whatever has been read is attested by the lines that were read. -/
theorem attested_of_feedAll {parser : Parser} {entry : Entry} {source : Option Text}
    {s t : Session} {raws : List Text} (hsession : parser.session entry source = .ok s)
    (hfeed : s.feedAll raws = .ok t) : t.Attested (Source.ofLines raws) := by
  obtain ⟨standard, -, -, hs⟩ := Session.session_eq_ok_iff.mp hsession
  refine (attested_of_session _ hsession).feedAll (.of_session hsession) ?_ hfeed
  intro i raw hraw
  refine ⟨by omega, ?_⟩
  rw [hs]
  simpa [Session.opening, Nat.add_comm] using hraw

/-- A feature that has been read is attested by the lines of its text, with the
    keywords of its language. -/
theorem attested_of_feature {parser : Parser} {text : Text} {source : Option Text}
    {feature : Feature} (h : parser.feature text source = .ok (some feature)) :
    ∃ keywords, parser.catalogue.lookup feature.language = some keywords ∧
      feature.Attested (Source.ofLines (lines text)) keywords ∧ feature.source = source ∧
      ∀ code, parser.language = some code → feature.language = code := by
  obtain ⟨s, t, hsession, hfeed, hfinish⟩ := feature_eq_ok h
  obtain ⟨standard, -, hchosen, hs⟩ := Session.session_eq_ok_iff.mp hsession
  have hsetup := Session.feedAll_setup hfeed
  have hattested := attested_of_feedAll hsession hfeed
  have hentry : s.entry = .feature := by rw [hs]; rfl
  have htable := hsetup.trans t.closeTable_setup
  have hstatement := htable.trans (Session.closeStatement_setup _)
  have hrule := hstatement.trans (Session.closeRule_setup _)
  have hclosed := (hattested.closeTable.closeStatement (by
    rw [htable.entry, hentry]; simp)).closeRule (by rw [hstatement.entry, hentry]; simp)
  obtain ⟨hfeature, hlanguage, hsource⟩ := hclosed.feature feature hfinish
  refine ⟨_, ?_, hfeature, ?_, ?_⟩
  · have hfind := (Session.find?_code hclosed.language).2
    rw [hrule.catalogue, hs, ← hlanguage] at hfind
    exact hfind
  · rw [hsource, hrule.source, hs]
    rfl
  · intro code hcode
    rw [hcode, Option.bind_some, Option.isSome_some, Option.isSome_iff_exists] at hchosen
    obtain ⟨language, hfind⟩ := hchosen
    rw [hcode, Option.bind_some, hfind] at hs
    have hfixed : s.fixed = true := by rw [hs]; rfl
    rw [hlanguage, hrule.language hfixed, hs]
    exact (Session.find?_code hfind).1

end Parser

/-! ## 3. Node by node -/

namespace Feature

variable {src : Source} {keywords : Keywords} {feature : Feature}

theorem Attested.group (h : feature.Attested src keywords) {group : Group}
    (hgroup : group ∈ feature.groups) : group.BodyAttested src keywords := by
  rcases List.mem_cons.mp hgroup with rfl | hgroup
  · exact h.top
  · exact (h.rules group hgroup).2

theorem Attested.headers (h : feature.Attested src keywords) {category : Category}
    {header : Header} (hheader : (category, header) ∈ feature.headers) :
    header.Attested src keywords category := by
  have hinner : ∀ group : Group, group.BodyAttested src keywords →
      (category, header) ∈ group.innerHeaders → header.Attested src keywords category := by
    intro group hgroup hmem
    rcases List.mem_append.mp hmem with hmem | hmem
    · obtain ⟨node, hnode, heq⟩ := List.mem_map.mp hmem
      obtain ⟨rfl, rfl⟩ := Prod.mk.injEq .. ▸ heq
      exact (hgroup.background node (Option.mem_toList.mp hnode)).1
    · obtain ⟨node, hnode, hmem⟩ := List.mem_flatMap.mp hmem
      obtain ⟨hown, hbody⟩ := hgroup.scenarios node hnode
      rcases List.mem_cons.mp hmem with heq | hmem
      · obtain ⟨rfl, rfl⟩ := Prod.mk.injEq .. ▸ heq
        exact hown
      · obtain ⟨block, hblock, heq⟩ := List.mem_map.mp hmem
        obtain ⟨rfl, rfl⟩ := Prod.mk.injEq .. ▸ heq
        cases hblocks : node.blocks with
        | none => simp [hblocks] at hblock
        | some blocks => exact (hbody.blocks blocks hblocks block (by simpa [hblocks] using hblock)).header
  rcases List.mem_append.mp hheader with hmem | hmem
  · rcases List.mem_cons.mp hmem with heq | hmem
    · obtain ⟨rfl, rfl⟩ := Prod.mk.injEq .. ▸ heq
      exact h.header
    · exact hinner _ h.top hmem
  · obtain ⟨rule, hrule, hmem⟩ := List.mem_flatMap.mp hmem
    obtain ⟨hown, hbody⟩ := h.rules rule hrule
    rcases List.mem_cons.mp hmem with heq | hmem
    · obtain ⟨rfl, rfl⟩ := Prod.mk.injEq .. ▸ heq
      exact hown
    · exact hinner rule hbody hmem

theorem Attested.steps (h : feature.Attested src keywords) {step : Step}
    (hstep : step ∈ feature.steps) : ∃ last, step.Attested src keywords last := by
  obtain ⟨group, hgroup, hmem⟩ := List.mem_flatMap.mp hstep
  have hbody := h.group hgroup
  rcases List.mem_append.mp hmem with hmem | hmem
  · obtain ⟨node, hnode, hmem⟩ := List.mem_flatMap.mp hmem
    exact (hbody.background node (Option.mem_toList.mp hnode)).2.steps.exists_of_mem hmem
  · obtain ⟨node, hnode, hmem⟩ := List.mem_flatMap.mp hmem
    exact (hbody.scenarios node hnode).2.steps.exists_of_mem hmem

theorem Attested.blocks (h : feature.Attested src keywords) {group : Group} {block : Examples}
    (hgroup : group ∈ feature.groups) (hblock : block ∈ group.blocks) :
    block.Attested src keywords := by
  obtain ⟨node, hnode, hmem⟩ := List.mem_flatMap.mp hblock
  have hbody := ((h.group hgroup).scenarios node hnode).2
  cases hblocks : node.blocks with
  | none => simp [hblocks] at hmem
  | some blocks => exact hbody.blocks blocks hblocks block (by simpa [hblocks] using hmem)

theorem Attested.tables (h : feature.Attested src keywords) {table : Table}
    (htable : table ∈ feature.tables) : table.Attested src := by
  rcases List.mem_append.mp htable with hmem | hmem
  · obtain ⟨step, hstep, heq⟩ := List.mem_filterMap.mp hmem
    obtain ⟨last, hattested⟩ := h.steps hstep
    exact hattested.table table heq
  · obtain ⟨group, hgroup, hmem⟩ := List.mem_flatMap.mp hmem
    obtain ⟨block, hblock, heq⟩ := List.mem_filterMap.mp hmem
    exact (h.blocks hgroup hblock).table table heq

theorem Attested.allTags (h : feature.Attested src keywords) {tag : Tag}
    (htag : tag ∈ feature.allTags) : tag.Attested src := by
  obtain ⟨group, hgroup, hmem⟩ := List.mem_flatMap.mp htag
  have hbody := h.group hgroup
  rcases List.mem_append.mp hmem with hmem | hmem
  · rcases List.mem_append.mp hmem with hmem | hmem
    · exact hbody.tags tag hmem
    · obtain ⟨node, hnode, hmem⟩ := List.mem_flatMap.mp hmem
      exact (hbody.scenarios node hnode).2.tags tag hmem
  · obtain ⟨block, hblock, hmem⟩ := List.mem_flatMap.mp hmem
    exact (h.blocks hgroup hblock).tags tag hmem

end Feature

/-- What a feature says stands in the given lines, under the numbers that its
    nodes remember. -/
structure Feature.FaithfulTo (raws : List Text) (keywords : Keywords) (feature : Feature) :
    Prop where
  headers : ∀ category header, (category, header) ∈ feature.headers →
    header.keyword ∈ keywords.aliases category ∧
      ∃ raw rest, Source.ofLines raws header.line raw ∧
        trim raw = header.keyword ++ ':' :: rest ∧ trim rest = header.title
  steps : ∀ step ∈ feature.steps,
    ∃ raw found, Source.ofLines raws step.line raw ∧
      keywords.step? (trim raw) = some found ∧ found.keyword = step.keyword ∧
      step.text = if step.hasArgument then dropFinal ':' found.text else found.text
  tables : ∀ table ∈ feature.tables,
    (∃ raw, Source.ofLines raws table.line raw ∧ table.headings = Cells.read (trim raw)) ∧
      ∀ row ∈ table.rows,
        ∃ raw, Source.ofLines raws row.line raw ∧ row.cells = Cells.read (trim raw)
  tags : ∀ tag ∈ feature.allTags,
    ∃ raw name, Source.ofLines raws tag.line raw ∧ '@' :: name ∈ words raw ∧
      tag = Tag.ofWord name tag.line

theorem Feature.Attested.faithfulTo {raws : List Text} {keywords : Keywords} {feature : Feature}
    (h : feature.Attested (Source.ofLines raws) keywords) :
    feature.FaithfulTo raws keywords := by
  constructor
  · intro category header hheader
    obtain ⟨raw, hraw, hfits⟩ := h.headers hheader
    obtain ⟨hmem, rest, hline, htitle⟩ := Keywords.header?_eq_some hfits
    exact ⟨hmem, raw, rest, hraw, hline, htitle⟩
  · intro step hstep
    obtain ⟨last, hattested⟩ := h.steps hstep
    obtain ⟨raw, found, hraw, hfound, hkeyword, -, htext⟩ := hattested.line
    exact ⟨raw, found, hraw, hfound, hkeyword.symm, htext⟩
  · intro table htable
    have hattested := h.tables htable
    exact ⟨hattested.headings, fun row hrow => (hattested.rows row hrow).2⟩
  · intro tag htag
    exact h.allTags htag

namespace Parser

/-- A feature is faithful to the text that it was read from, whatever the
    keywords are. -/
theorem feature_faithful {parser : Parser} {text : Text} {source : Option Text}
    {feature : Feature} (h : parser.feature text source = .ok (some feature)) :
    ∃ keywords, parser.catalogue.lookup feature.language = some keywords ∧
      feature.FaithfulTo (lines text) keywords := by
  obtain ⟨keywords, hlookup, hattested, -⟩ := attested_of_feature h
  exact ⟨keywords, hlookup, hattested.faithfulTo⟩

/-- For instance with a tag, a table below a step and an Examples block. -/
theorem feature_faithful_outline :
    ∃ feature keywords,
      standard.feature
          "@a\nFeature: F\nScenario Outline: S\nGiven a:\n| x |\n| y |\nExamples:\n| z |".toList
          none = .ok (some feature) ∧
        feature.headers.length = 3 ∧ feature.steps.length = 1 ∧ feature.tables.length = 2 ∧
        feature.allTags.length = 1 ∧
        feature.FaithfulTo
          (lines
            "@a\nFeature: F\nScenario Outline: S\nGiven a:\n| x |\n| y |\nExamples:\n| z |".toList)
          keywords := by
  have hread : ∃ feature,
      standard.feature
          "@a\nFeature: F\nScenario Outline: S\nGiven a:\n| x |\n| y |\nExamples:\n| z |".toList
          none = .ok (some feature) ∧
        feature.headers.length = 3 ∧ feature.steps.length = 1 ∧ feature.tables.length = 2 ∧
        feature.allTags.length = 1 := ⟨_, rfl, rfl, rfl, rfl, rfl⟩
  obtain ⟨feature, hfeature, hheaders, hsteps, htables, htags⟩ := hread
  obtain ⟨keywords, -, hfaithful⟩ := feature_faithful hfeature
  exact ⟨feature, keywords, hfeature, hheaders, hsteps, htables, htags, hfaithful⟩

end Parser

end Gherkin
