/-
  Gherkin/Proofs/RoundTrip/Lines.lean
  ===================================
  **Reading single lines into a draft.**

  Each statement here says what one line does to a draft: a line of tags, a
  header of each category, a line of a description, and a step.  What is asked
  of the line is only that it is recognised as what it is and as nothing else.
-/
import Gherkin.Proofs.Keyword.Clarity
import Gherkin.Proofs.RoundTrip.Draft
import Gherkin.Proofs.Tag.Words

namespace Gherkin

open Text

/-! ## 1. How lines begin -/

namespace Text

theorem head?_trimEnd {t : Text} (h : SolidStart t) : (trimEnd t).head? = t.head? := by
  cases t with
  | nil => rfl
  | cons c t =>
    have hc := solidStart_cons.mp h
    obtain ⟨rest, hrest⟩ := List.rdropWhile_prefix isBlank (l := c :: t)
    rw [← trimEnd_eq_rdropWhile] at hrest
    cases htrim : trimEnd (c :: t) with
    | nil =>
      have hne : trim (c :: t) ≠ [] := trim_ne_nil List.mem_cons_self hc
      rw [trim, trimStart_eq_self h, htrim] at hne
      exact absurd rfl hne
    | cons d s =>
      rw [htrim] at hrest
      simp [(List.cons.inj hrest).1]

theorem head?_trimStart (raw : Text) : (trimStart raw).head? = (trim raw).head? :=
  (head?_trimEnd (solidStart_trimStart raw)).symm

theorem beginsPlainly_append {s : Text} (h : beginsPlainly s = true) (t : Text) :
    beginsPlainly (s ++ t) = true := by
  cases s with
  | nil => simp [beginsPlainly] at h
  | cons c s => exact h

theorem ne_nil_of_beginsPlainly {t : Text} (h : beginsPlainly t = true) : t ≠ [] := by
  rintro rfl
  simp [beginsPlainly] at h

theorem leads_of_beginsPlainly {t : Text} (h : beginsPlainly t = true) {c : Char}
    (hc : c ∈ signs) : leads c t = false := by
  cases t with
  | nil => rfl
  | cons d t =>
    simp only [beginsPlainly, List.head?_cons, Option.any_some, Bool.and_eq_true,
      Bool.not_eq_true', List.contains_eq_mem, decide_eq_false_iff_not] at h
    have hne : d ≠ c := fun heq => h.2 (heq ▸ hc)
    simpa [leads] using hne

theorem solidStart_of_beginsPlainly {t : Text} (h : beginsPlainly t = true) : SolidStart t := by
  cases t with
  | nil => exact solidStart_nil
  | cons d t =>
    simp only [beginsPlainly, List.head?_cons, Option.any_some, Bool.and_eq_true,
      Bool.not_eq_true'] at h
    exact solidStart_cons.mpr h.1

end Text

theorem Fence.open?_eq_none {t : Text} (hdouble : leads '"' t = false)
    (hsingle : leads '\x27' t = false) : Fence.open? t = none := by
  cases t with
  | nil => rfl
  | cons c t =>
    have hd : '"' ≠ c := fun heq => by simp [leads, ← heq] at hdouble
    have hs : '\x27' ≠ c := fun heq => by simp [leads, ← heq] at hsingle
    simp [Fence.open?, Fence.mark, after?, hd, hs]

theorem leads_trimStart (c : Char) (raw : Text) : leads c (trimStart raw) = leads c (trim raw) := by
  unfold leads
  rw [head?_trimStart]

/-! ## 2. The kinds of recognised lines -/

/-- The modes at the head of a group. -/
def Mode.isHead : Mode → Bool
  | .feature | .rule => true
  | _ => false

/-- The modes at the head of a statement. -/
def Mode.isBody : Mode → Bool
  | .background | .scenario => true
  | _ => false

def Mode.isSteps : Mode → Bool
  | .steps => true
  | _ => false

theorem Mode.isOpen_of_isHead (mode : Mode) (h : mode.isHead = true) : mode.isOpen = true := by
  cases mode <;> simp_all [Mode.isHead, Mode.isOpen]

theorem Mode.isOpen_of_hasStepLines (mode : Mode) (h : mode.hasStepLines = true) :
    mode.isOpen = true := by
  cases mode <;> simp_all [Mode.hasStepLines, Mode.isOpen]

theorem Mode.hasStepLines_of_isBody (mode : Mode) (h : mode.isBody = true) :
    mode.hasStepLines = true := by
  cases mode <;> simp_all [Mode.isBody, Mode.hasStepLines]

theorem Mode.hasStepLines_of_isSteps (mode : Mode) (h : mode.isSteps = true) :
    mode.hasStepLines = true := by
  cases mode <;> simp_all [Mode.isSteps, Mode.hasStepLines]

/-- The line is a header of the category and nothing else. -/
structure HeaderLine (keywords : Keywords) (category : Category) (header : Header) (raw : Text) :
    Prop where
  own : keywords.header? category (trim raw) = some (header.keyword, header.title)
  others : ∀ other ∈ headings, category ≠ other → keywords.header? other (trim raw) = none
  stepless : keywords.step? (trim raw) = none
  plain : beginsPlainly (trim raw) = true

theorem HeaderLine.fence {keywords : Keywords} {category : Category} {header : Header}
    {raw : Text}
    (h : HeaderLine keywords category header raw) : Fence.open? (trimStart raw) = none := by
  apply Fence.open?_eq_none
  · rw [leads_trimStart]
    exact leads_of_beginsPlainly h.plain (by decide)
  · rw [leads_trimStart]
    exact leads_of_beginsPlainly h.plain (by decide)

namespace Session

variable {u : Session} {raw : Text}

theorem tags_reader_eq_none (h : leads '@' (trim raw) = false) :
    LineKind.tags.reader u raw = none := by
  simp [LineKind.reader, Reader.tagLine, h]

/-- In a mode that takes headers, a line that is no fence and no step is what
    the taggable kinds say. -/
theorem kind?_taggable {kind : LineKind} (hopen : u.mode.isOpen = true)
    (hfence : Fence.open? (trimStart raw) = none) (hstep : u.keywords.step? (trim raw) = none)
    (hkind : taggableKinds.find? (fun kind => (kind.reader u raw).isSome) = some kind) :
    u.kind? raw = some kind := by
  have hnofence : LineKind.fence.reader u raw = none := by
    simp [LineKind.reader, Reader.fenceLine, hfence]
  have hnostep : LineKind.step.reader u raw = none := by
    simp [LineKind.reader, Reader.stepLine, hstep]
  unfold Session.kind?
  cases hm : u.mode <;> simp [hm, Mode.isOpen] at hopen <;>
    simp [Mode.kinds, hnofence, hnostep, hkind]

/-- A line without tags that heads no statement with tags is of no taggable
    kind. -/
theorem taggable_reader_eq_none (htags : leads '@' (trim raw) = false)
    (hplain : ∀ category ∈ taggableCategories, u.keywords.header? category (trim raw) = none) :
    ∀ kind ∈ taggableKinds, kind.reader u raw = none := by
  have hheader : ∀ category ∈ taggableCategories, u.header? category raw = none :=
    fun category hcategory => header?_eq_none_iff.mpr (hplain category hcategory)
  intro kind hkind
  simp only [taggableKinds, List.mem_cons, List.not_mem_nil, or_false] at hkind
  rcases hkind with rfl | rfl | rfl | rfl | rfl
  · exact tags_reader_eq_none htags
  · simp [LineKind.reader, Reader.ruleHeader, hheader .rule (by decide)]
  · simp [LineKind.reader, Reader.scenarioHeader, hheader .scenario (by decide)]
  · simp [LineKind.reader, Reader.scenarioHeader, hheader .outline (by decide)]
  · simp [LineKind.reader, Reader.examplesHeader, hheader .examples (by decide)]

/-- At the head of a group the line is then a background or belongs to the
    description. -/
theorem kind?_head {kind : LineKind} (hhead : u.mode = .feature ∨ u.mode = .rule)
    (hnone : ∀ kind ∈ taggableKinds, kind.reader u raw = none)
    (hkind : [LineKind.background, .groupDescription].find?
      (fun kind => (kind.reader u raw).isSome) = some kind) : u.kind? raw = some kind := by
  have hkinds : u.mode.kinds = taggableKinds ++ [.background, .groupDescription] := by
    rcases hhead with hmode | hmode <;> rw [hmode] <;> rfl
  have hfind : taggableKinds.find? (fun kind => (kind.reader u raw).isSome) = none := by
    rw [List.find?_eq_none]
    intro other hother
    simp [hnone other hother]
  unfold Session.kind?
  rw [hkinds, List.find?_append, hfind, hkind]
  rfl

theorem header?_eq_of_line {header : Header} {category : Category}
    (h : HeaderLine u.keywords category header raw) :
    u.header? category raw = some { header with line := u.line } := by
  simp [Session.header?, h.own]

theorem header?_eq_none_of_line {header : Header} {category : Category}
    (h : HeaderLine u.keywords category header raw) (other : Category)
    (hother : other ∈ headings) (hne : category ≠ other) : u.header? other raw = none :=
  header?_eq_none_iff.mpr (h.others other hother hne)

/-- The kinds of the headers that may have tags. -/
def headerKinds : List (Category × LineKind) :=
  [(.rule, .rule), (.scenario, .scenario .scenario none),
    (.outline, .scenario .outline (some [])), (.examples, .examples)]

theorem kind?_header {category : Category} {kind : LineKind} {header : Header}
    (hopen : u.mode.isOpen = true) (h : HeaderLine u.keywords category header raw)
    (hkind : (category, kind) ∈ headerKinds) : u.kind? raw = some kind := by
  have htags : LineKind.tags.reader u raw = none :=
    tags_reader_eq_none (leads_of_beginsPlainly h.plain (by decide))
  have hown := header?_eq_of_line h
  refine kind?_taggable hopen h.fence h.stepless ?_
  unfold taggableKinds
  rw [List.find?_cons_of_neg (by simp [htags])]
  simp only [headerKinds, List.mem_cons, List.not_mem_nil, or_false, Prod.mk.injEq] at hkind
  rcases hkind with ⟨rfl, rfl⟩ | ⟨rfl, rfl⟩ | ⟨rfl, rfl⟩ | ⟨rfl, rfl⟩
  · simp [LineKind.reader, Reader.ruleHeader, hown]
  · have hrule := header?_eq_none_of_line h .rule (by decide) (by decide)
    simp [LineKind.reader, Reader.ruleHeader, Reader.scenarioHeader, hown, hrule]
  · have hrule := header?_eq_none_of_line h .rule (by decide) (by decide)
    have hscenario := header?_eq_none_of_line h .scenario (by decide) (by decide)
    simp [LineKind.reader, Reader.ruleHeader, Reader.scenarioHeader, hown, hrule, hscenario]
  · have hrule := header?_eq_none_of_line h .rule (by decide) (by decide)
    have hscenario := header?_eq_none_of_line h .scenario (by decide) (by decide)
    have houtline := header?_eq_none_of_line h .outline (by decide) (by decide)
    simp [LineKind.reader, Reader.ruleHeader, Reader.scenarioHeader, Reader.examplesHeader, hown,
      hrule, hscenario, houtline]

/-! ## 3. Slots -/

variable {language : Language} {modes : Mode → Bool} {d : Draft}

theorem Shows.feature_eq (h : u.Shows language modes d) :
    ∃ feature, u.feature = some feature ∧
      feature.renumber unnumbered = d.place.feature d.group :=
  Option.map_eq_some_iff.mp h.feature

/-- A change of the group that does not look at lines. -/
theorem Shows.mapGroup (h : u.Shows language modes d) {f g : Group → Group}
    (hf : ∀ group : Group, (f group).renumber unnumbered = g (group.renumber unnumbered)) :
    (u.mapGroup f).Shows language modes { d with group := g d.group } := by
  obtain ⟨feature, hfeature, hslot⟩ := h.feature_eq
  have hrule := h.rule
  rw [mapGroup_eq]
  cases hplace : d.place with
  | top base =>
    rw [hplace] at hslot hrule
    have hnone : u.rule = none := by simpa [Place.rule] using hrule
    have htop : feature.top.renumber unnumbered = d.group := congrArg Feature.top hslot
    have hchanged : ({ feature with top := f feature.top } : Feature).renumber unnumbered =
        { base with top := g d.group } := by
      calc ({ feature with top := f feature.top } : Feature).renumber unnumbered
          = { feature.renumber unnumbered with top := (f feature.top).renumber unnumbered } := rfl
        _ = { base with top := g d.group } := by rw [hslot, hf, htop]; rfl
    refine ⟨h.entry, h.chosen, h.mode, h.tags, ?_, ?_, h.statement⟩
    · simp [hnone, hfeature, Place.feature, hchanged]
    · simp [hnone, Place.rule]
  | rules base =>
    rw [hplace] at hslot hrule
    obtain ⟨rule, hsome, hgroup⟩ := Option.map_eq_some_iff.mp hrule
    refine ⟨h.entry, h.chosen, h.mode, h.tags, ?_, ?_, h.statement⟩
    · simpa [hsome, hfeature, Place.feature] using hslot
    · simp [hsome, Place.rule, hf, hgroup]

/-- Closing the open statement puts it into the group. -/
theorem Shows.closeStatement (h : u.Shows language modes d) :
    u.closeStatement.Shows language modes { d with group := d.closed, statement := none } := by
  have hstatement := h.statement
  unfold Session.closeStatement
  cases hu : u.statement with
  | none =>
    have hnone : d.statement = none := by simpa [hu] using hstatement.symm
    have hsame : ({ d with group := d.closed, statement := none } : Draft) = d := by
      obtain ⟨place, group, statement, tags⟩ := d
      obtain rfl : statement = none := hnone
      rfl
    rw [hsame]
    exact h
  | some statement =>
    have hsome : d.statement = some (statement.renumber unnumbered) := by
      simpa [hu] using hstatement.symm
    have hclosed : d.closed = d.group.close (statement.renumber unnumbered) := by
      simp [Draft.closed, hsome, Group.closeAll]
    rw [hclosed]
    have hgroup := h.mapGroup (f := (·.close statement))
      (g := (·.close (statement.renumber unnumbered))) fun group => group.renumber_close statement
    exact { hgroup with statement := rfl }

/-- Behind the last line of a group the feature has the group. -/
theorem Shows.feature_closeRule (h : u.Shows language modes d) :
    u.closeRule.feature.map (·.renumber unnumbered) = some (d.place.finish d.group) := by
  obtain ⟨feature, hfeature, hslot⟩ := h.feature_eq
  have hrule := h.rule
  rw [closeRule_eq]
  cases hplace : d.place with
  | top base =>
    rw [hplace] at hslot hrule
    have hnone : u.rule = none := by simpa [Place.rule] using hrule
    simp only [hnone, hfeature, Option.map_some, Option.toList_none, List.append_nil]
    exact congrArg some hslot
  | rules base =>
    rw [hplace] at hslot hrule
    obtain ⟨rule, hsome, hgroup⟩ := Option.map_eq_some_iff.mp hrule
    have hchanged : ({ feature with rules := feature.rules ++ [rule] } : Feature).renumber
        unnumbered = { base with rules := base.rules ++ [d.group] } := by
      calc ({ feature with rules := feature.rules ++ [rule] } : Feature).renumber unnumbered
          = { feature.renumber unnumbered with
              rules := (feature.rules ++ [rule]).map (·.renumber unnumbered) } := rfl
        _ = { feature.renumber unnumbered with
              rules := (feature.renumber unnumbered).rules ++ [rule.renumber unnumbered] } := by
            rw [List.map_append]; rfl
        _ = { base with rules := base.rules ++ [d.group] } := by rw [hslot, hgroup]; rfl
    simp [hsome, hfeature, Place.finish, hchanged]

/-- A change of the open statement that does not look at lines. -/
theorem Shows.mapStatement (h : u.Shows language modes d) {f g : Statement → Statement}
    (hf : ∀ statement : Statement,
      (f statement).renumber unnumbered = g (statement.renumber unnumbered)) :
    (u.mapStatement f).Shows language modes { d with statement := d.statement.map g } := by
  refine ⟨h.entry, h.chosen, h.mode, h.tags, h.feature, h.rule, ?_⟩
  rw [← h.statement]
  simp only [Session.mapStatement, Option.map_map]
  exact congrArg (Option.map · u.statement) (funext hf)

/-! ## 4. Lines of tags and headers -/

variable {s : Session}

theorem leads_join_written {tags : List Tag} (hne : tags ≠ []) :
    ∃ rest, join ' ' (tags.map (·.written)) = '@' :: rest := by
  cases tags with
  | nil => exact absurd rfl hne
  | cons tag rest =>
    by_cases hrest : rest = []
    · exact ⟨tag.word, by simp [hrest, join, Tag.written_eq]⟩
    · rw [List.map_cons, join_cons _ _ (by simpa using hrest), Tag.written_eq]
      exact ⟨_, List.cons_append ..⟩

/-- A line of tags leaves them waiting for their statement. -/
theorem Holds.tagLine (h : s.Holds language Mode.isOpen d) (hclear : language.keywords.Clear)
    {tags : List Tag} (htags : ∀ tag ∈ tags, tag.FromWord) (hne : tags ≠ [])
    (hraw : trim raw = join ' ' (tags.map (·.written))) :
    ∃ t, s.feed raw = .ok t ∧
      t.Holds language Mode.isOpen
        { d with tags := d.tags ++ tags.map (·.renumber unnumbered) } := by
  obtain ⟨rest, hlead⟩ := leads_join_written hne
  have hat : trim raw = '@' :: rest := hraw.trans hlead
  refine h.feed ⟨by simp [hat], by simp [hat, leads]⟩ (.inl (by simp [hat, leads])) ?_
  intro u _ hu
  have hfence : Fence.open? (trimStart raw) = none := by
    apply Fence.open?_eq_none <;> rw [leads_trimStart, hat] <;> rfl
  have hstep : u.keywords.step? (trim raw) = none := by
    rw [hu.keywords, hat]
    exact hclear.step?_at rest
  have hrow : Tag.ofLine u.line (trim raw) =
      .ok (tags.map fun tag => { tag with line := u.line }) := by
    rw [hraw]
    exact Tag.ofLine_join htags u.line
  have hstart : u.mode ≠ .start := ne_start_of_isOpen hu.mode
  have hreader : LineKind.tags.reader u raw = some (.ok { u with
      tags := u.tags ++ tags.map fun tag => { tag with line := u.line }
      mode := .tagged }) := by
    have hleads : leads '@' (trim raw) = true := by rw [hat]; rfl
    simp [LineKind.reader, Reader.tagLine, hleads, hrow, hstart]
  have hkind : u.kind? raw = some .tags := by
    refine kind?_taggable hu.mode hfence hstep ?_
    simp [taggableKinds, hreader]
  refine ⟨_, read_eq_ok_iff.mpr ⟨.tags, hkind, hreader⟩, ?_⟩
  rw [closeTable_of_left rfl]
  refine ⟨hu.entry, hu.chosen, rfl, ?_, hu.feature, hu.rule, hu.statement⟩
  rw [List.map_append, hu.tags, List.map_map]
  rfl

/-- A header that may have tags goes to its reader. -/
theorem Holds.header_of_reader (kind : LineKind) {category : Category} {header : Header}
    {Q : Session → Prop} (h : s.Holds language Mode.isOpen d)
    (hline : HeaderLine language.keywords category header raw)
    (hkind : (category, kind) ∈ headerKinds)
    (hreader : ∀ u : Session, u.Shows language Mode.isOpen d →
      u.header? category raw = some { header with line := u.line } →
      ∃ t, kind.reader u raw = some (.ok t) ∧ Q t) :
    ∃ t, s.feed raw = .ok t ∧ t.Sound ∧ Q t := by
  have hplain : ∀ c ∈ signs, leads c (trim raw) = false :=
    fun c hc => leads_of_beginsPlainly hline.plain hc
  refine h.feed_of_read ⟨ne_nil_of_beginsPlainly hline.plain, hplain '#' (by decide)⟩
    (.inl (hplain '|' (by decide))) ?_
  intro u _ hu
  have hown : HeaderLine u.keywords category header raw := hu.keywords.symm ▸ hline
  obtain ⟨t, hreader, ht⟩ := hreader u hu (header?_eq_of_line hown)
  exact ⟨t, read_eq_ok_iff.mpr ⟨kind, kind?_header hu.mode hown hkind, hreader⟩, ht⟩

theorem Holds.header (kind : LineKind) {category : Category} {header : Header}
    {next : Mode → Bool} {e : Draft} (h : s.Holds language Mode.isOpen d)
    (hline : HeaderLine language.keywords category header raw)
    (hkind : (category, kind) ∈ headerKinds)
    (hreader : ∀ u : Session, u.Shows language Mode.isOpen d →
      u.header? category raw = some { header with line := u.line } →
      ∃ t, kind.reader u raw = some (.ok t) ∧ t.closeTable.Shows language next e) :
    ∃ t, s.feed raw = .ok t ∧ t.Holds language next e := by
  obtain ⟨t, hfeed, hsound, ht⟩ := h.header_of_reader kind hline hkind hreader
  exact ⟨t, hfeed, hsound, ht⟩

/-- The header of a rule closes what is open and starts the next group. -/
theorem Holds.ruleHeader {header : Header} (h : s.Holds language Mode.isOpen d)
    (hline : HeaderLine language.keywords .rule header raw) :
    ∃ t, s.feed raw = .ok t ∧ t.Holds language Mode.isHead
      ⟨.rules (d.place.finish d.closed), .start (header.renumber unnumbered) d.tags, none, []⟩ := by
  refine h.header .rule hline (by decide) ?_
  intro u hu hheader
  obtain ⟨feature, hfeature, -⟩ := hu.feature_eq
  refine ⟨_, by simp [LineKind.reader, Reader.ruleHeader, hheader, hfeature]; rfl, ?_⟩
  rw [closeTable_of_left rfl]
  have hclosed := hu.closeStatement.feature_closeRule
  refine ⟨?_, ?_, rfl, rfl, hclosed, ?_, ?_⟩
  · rw [closeRule_eq, closeStatement_eq]
    exact hu.entry
  · rw [closeRule_eq, closeStatement_eq]
    exact hu.chosen
  · simp only [Option.map_some, Group.renumber_start, hu.tags]
    rfl
  · rw [closeRule_eq, closeStatement_eq]
    rfl

/-- The header of a scenario or an outline opens it behind what is closed. -/
theorem Holds.scenarioHeader {header : Header} {category : Category}
    {blocks : Option (List Examples)} (h : s.Holds language Mode.isOpen d)
    (hline : HeaderLine language.keywords category header raw)
    (hknown : category = .scenario ∧ blocks = none ∨ category = .outline ∧ blocks = some []) :
    ∃ t, s.feed raw = .ok t ∧ t.Holds language Mode.isBody
      ⟨d.place, d.closed,
        some (.scenario ⟨header.renumber unnumbered, d.tags, [], [], blocks⟩), []⟩ := by
  have hkind : (category, LineKind.scenario category blocks) ∈ headerKinds := by
    rcases hknown with ⟨rfl, rfl⟩ | ⟨rfl, rfl⟩ <;> decide
  refine h.header (.scenario category blocks) hline hkind ?_
  intro u hu hheader
  obtain ⟨feature, hfeature, -⟩ := hu.feature_eq
  have hgroup : u.group?.isNone = false := by
    unfold group?
    cases u.rule <;> simp [hfeature]
  refine ⟨_, by simp [LineKind.reader, Reader.scenarioHeader, hheader, hgroup]; rfl, ?_⟩
  rw [closeTable_of_left rfl, startStatement_eq]
  have hclosed := hu.closeStatement
  refine ⟨hclosed.entry, hclosed.chosen, rfl, rfl, hclosed.feature, hclosed.rule, ?_⟩
  rcases hknown with ⟨-, rfl⟩ | ⟨-, rfl⟩ <;>
    simp [Statement.renumber, Scenario.renumber, Header.renumber, unnumbered, ← hu.tags]

/-- The header of an Examples block adds the block to the outline. -/
theorem Holds.examplesHeader {header : Header} {statement : Statement} {blocks : List Examples}
    (h : s.Holds language Mode.isOpen d) (hstatement : d.statement = some statement)
    (hblocks : statement.blocks? = some blocks)
    (hline : HeaderLine language.keywords .examples header raw) :
    ∃ t, s.feed raw = .ok t ∧ t.Sound ∧ t.mode = .examples none ∧
      t.Shows language (fun _ => true) { d with
        statement := some (statement.mapBlocks (· ++ [⟨header.renumber unnumbered, d.tags, none⟩]))
        tags := [] } := by
  refine h.header_of_reader .examples hline (by decide) ?_
  intro u hu hheader
  obtain ⟨old, hold, hrenumber⟩ := Option.map_eq_some_iff.mp (hu.statement.trans hstatement)
  have houtline : (u.statement.bind (·.blocks?)).isNone = false := by
    rw [← hrenumber, Statement.blocks?_renumber] at hblocks
    obtain ⟨oldBlocks, holdBlocks, -⟩ := Option.map_eq_some_iff.mp hblocks
    simp [hold, holdBlocks]
  refine ⟨_, by simp [LineKind.reader, Reader.examplesHeader, hheader, houtline]; rfl, rfl, ?_⟩
  refine ⟨hu.entry, hu.chosen, rfl, rfl, hu.feature, hu.rule, ?_⟩
  have hchange := Statement.renumber_mapBlocks (r := unnumbered)
    (f := (· ++ [⟨{ header with line := u.line }, u.tags, none⟩]))
    (g := (· ++ [⟨header.renumber unnumbered, d.tags, none⟩]))
    (fun blocks => by simp [Examples.renumber, Header.renumber, unnumbered, ← hu.tags]) old
  simp only [mapStatement, hold, Option.map_some, hchange, hrenumber]

/-- The header of a background opens it. -/
theorem Holds.backgroundHeader {header : Header} (h : s.Holds language Mode.isHead d)
    (hline : HeaderLine language.keywords .background header raw) :
    ∃ t, s.feed raw = .ok t ∧ t.Holds language Mode.isBody
      { d with statement := some (.background ⟨header.renumber unnumbered, [], []⟩) } := by
  have hplain : ∀ c ∈ signs, leads c (trim raw) = false :=
    fun c hc => leads_of_beginsPlainly hline.plain hc
  refine h.feed ⟨ne_nil_of_beginsPlainly hline.plain, hplain '#' (by decide)⟩ (.inr rfl) ?_
  intro u hsound hu
  have hown : HeaderLine u.keywords .background header raw := hu.keywords.symm ▸ hline
  have hmode : u.mode = .feature ∨ u.mode = .rule := by
    have := hu.mode
    cases hm : u.mode <;> simp_all [Mode.isHead]
  obtain ⟨htags, hstatement, group, hgroup, hbackground, -⟩ := hsound.mode.head hmode
  have hreader : LineKind.background.reader u raw =
      some (.ok (u.startStatement (.background ⟨{ header with line := u.line }, [], []⟩)
        .background)) := by
    simp [LineKind.reader, Reader.backgroundHeader, header?_eq_of_line hown, htags, hgroup,
      hbackground]
  have hkind : u.kind? raw = some .background := by
    have htaggable : ∀ category ∈ taggableCategories,
        category ∈ headings ∧ Category.background ≠ category := by decide
    have hnone := taggable_reader_eq_none (u := u) (hplain '@' (by decide)) fun category hmem =>
      hown.others category (htaggable category hmem).1 (htaggable category hmem).2
    refine kind?_head hmode hnone ?_
    simp [hreader]
  refine ⟨_, read_eq_ok_iff.mpr ⟨.background, hkind, hreader⟩, ?_⟩
  have hsame : u.closeStatement = u := by simp [Session.closeStatement, hstatement]
  rw [closeTable_of_left rfl, startStatement_eq, hsame]
  exact ⟨hu.entry, hu.chosen, rfl, hu.tags, hu.feature, hu.rule, rfl⟩

/-! ## 5. Descriptions and steps -/

/-- A line of a description goes to the group at its head. -/
theorem Holds.groupDescription {line : Text} (h : s.Holds language Mode.isHead d)
    (hraw : trim raw = line)
    (hvisible : line ≠ [] ∧ leads '#' line = false ∧ leads '@' line = false)
    (hplain : ∀ category ∈ .background :: taggableCategories,
      language.keywords.header? category line = none) :
    ∃ t, s.feed raw = .ok t ∧
      t.Holds language Mode.isHead { d with group := d.group.describe line } := by
  subst hraw
  refine h.feed ⟨hvisible.1, hvisible.2.1⟩ (.inr rfl) ?_
  intro u hsound hu
  rw [← hu.keywords] at hplain
  have hmode : u.mode = .feature ∨ u.mode = .rule := by
    have := hu.mode
    cases hm : u.mode <;> simp_all [Mode.isHead]
  obtain ⟨-, -, group, hgroup, -⟩ := hsound.mode.head hmode
  have hnone := taggable_reader_eq_none hvisible.2.2 fun category hcategory =>
    hplain category (List.mem_cons_of_mem _ hcategory)
  have hbackground : u.header? .background raw = none :=
    header?_eq_none_iff.mpr (hplain .background List.mem_cons_self)
  have hkind : u.kind? raw = some .groupDescription := by
    refine kind?_head hmode hnone ?_
    simp [LineKind.reader, Reader.backgroundHeader, Reader.groupDescription, hbackground, hgroup]
  have hreader : LineKind.groupDescription.reader u raw =
      some (.ok (u.mapGroup (·.describe (trim raw)))) := by
    simp [LineKind.reader, Reader.groupDescription, hgroup]
  refine ⟨_, read_eq_ok_iff.mpr ⟨.groupDescription, hkind, hreader⟩, ?_⟩
  have hshows := hu.mapGroup (f := (·.describe (trim raw))) (g := (·.describe (trim raw)))
    fun group => group.renumber_describe _
  rwa [closeTable_of_left]
  have hkept : (u.mapGroup (·.describe (trim raw))).mode = u.mode := by rw [mapGroup_eq]
  rw [hkept]
  rcases hmode with hmode | hmode <;> rw [hmode] <;> rfl

/-- A line of a description goes to the statement at its head. -/
theorem Holds.statementDescription {line : Text} {statement : Statement}
    (h : s.Holds language Mode.isBody d) (hstatement : d.statement = some statement)
    (hraw : trim raw = line)
    (hvisible : line ≠ [] ∧ leads '#' line = false ∧ leads '@' line = false)
    (hstepless : language.keywords.step? line = none)
    (hplain : ∀ category ∈ taggableCategories,
      language.keywords.header? category line = none) :
    ∃ t, s.feed raw = .ok t ∧
      t.Holds language Mode.isBody { d with statement := some (statement.describe line) } := by
  subst hraw
  refine h.feed ⟨hvisible.1, hvisible.2.1⟩ (.inr rfl) ?_
  intro u hsound hu
  rw [← hu.keywords] at hplain hstepless
  obtain ⟨old, hold, hrenumber⟩ := Option.map_eq_some_iff.mp (hu.statement.trans hstatement)
  have hmode : u.mode = .background ∨ u.mode = .scenario := by
    have := hu.mode
    cases hm : u.mode <;> simp_all [Mode.isBody]
  have hreader : LineKind.statementDescription.reader u raw =
      some (.ok (u.mapStatement (·.describe (trim raw)))) := by
    simp [LineKind.reader, Reader.statementDescription, hold]
  have hkind : u.kind? raw = some .statementDescription := by
    have hnone := taggable_reader_eq_none hvisible.2.2 hplain
    have hkinds : u.mode.kinds = .step :: taggableKinds ++ [.statementDescription] := by
      rcases hmode with hmode | hmode <;> rw [hmode] <;> rfl
    have hfind : (LineKind.step :: taggableKinds).find?
        (fun kind => (kind.reader u raw).isSome) = none := by
      rw [List.find?_eq_none]
      intro kind hmem
      rcases List.mem_cons.mp hmem with rfl | hmem
      · simp [LineKind.reader, Reader.stepLine, hstepless]
      · simp [hnone kind hmem]
    unfold Session.kind?
    rw [hkinds, List.find?_append, hfind]
    simp [hreader]
  refine ⟨_, read_eq_ok_iff.mpr ⟨.statementDescription, hkind, hreader⟩, ?_⟩
  have hshows := hu.mapStatement (f := (·.describe (trim raw))) (g := (·.describe (trim raw)))
    fun statement => statement.renumber_describe _
  rw [hstatement] at hshows
  rwa [closeTable_of_left]
  show u.mode.left = u.mode
  rcases hmode with hmode | hmode <;> rw [hmode] <;> rfl

/-- A step goes behind the steps of the open statement. -/
theorem Holds.stepLine {statement : Statement} {found : StepMatch} {type : StepType}
    (h : s.Holds language Mode.hasStepLines d) (hstatement : d.statement = some statement)
    (hplain : beginsPlainly (trim raw) = true)
    (hfound : language.keywords.step? (trim raw) = some found)
    (hresolved : found.resolve statement.lastType = some type) :
    ∃ t, s.feed raw = .ok t ∧ t.Sound ∧ t.Shows language Mode.isSteps { d with
      statement := some (statement.addStep ⟨found.keyword, type, found.text, none, none, 0⟩) } := by
  have hsigns : ∀ c ∈ signs, leads c (trim raw) = false :=
    fun c hc => leads_of_beginsPlainly hplain hc
  refine h.feed_of_read ⟨ne_nil_of_beginsPlainly hplain, hsigns '#' (by decide)⟩
    (.inl (hsigns '|' (by decide))) ?_
  intro u hsound hu
  rw [← hu.keywords] at hfound
  obtain ⟨old, hold, hrenumber⟩ := Option.map_eq_some_iff.mp (hu.statement.trans hstatement)
  have hlast : u.lastType = statement.lastType := by
    rw [hsound.lastType, hold, ← hrenumber, Statement.lastType_renumber]
    rfl
  have hreader : LineKind.step.reader u raw = some (.ok { u.mapStatement
      (·.addStep ⟨found.keyword, type, found.text, none, none, u.line⟩) with
      lastType := some type, mode := .steps }) := by
    simp [LineKind.reader, Reader.stepLine, hfound, hlast, hresolved]
  have hkind : u.kind? raw = some .step := by
    have hfence : LineKind.fence.reader u raw = none := by
      have hnone : Fence.open? (trimStart raw) = none := by
        apply Fence.open?_eq_none <;> rw [leads_trimStart]
        · exact hsigns '"' (by decide)
        · exact hsigns '\x27' (by decide)
      simp [LineKind.reader, Reader.fenceLine, hnone]
    have hmode := hu.mode
    unfold Session.kind?
    cases hm : u.mode <;> simp [hm, Mode.hasStepLines] at hmode <;>
      simp [Mode.kinds, hreader, hfence]
  refine ⟨_, read_eq_ok_iff.mpr ⟨.step, hkind, hreader⟩, ?_⟩
  have hshows := hu.mapStatement
    (f := (·.addStep ⟨found.keyword, type, found.text, none, none, u.line⟩))
    (g := (·.addStep ⟨found.keyword, type, found.text, none, none, 0⟩))
    fun statement => statement.renumber_addStep _
  rw [hstatement] at hshows
  exact ⟨hshows.entry, hshows.chosen, rfl, hshows.tags, hshows.feature, hshows.rule,
    hshows.statement⟩

end Session

end Gherkin
