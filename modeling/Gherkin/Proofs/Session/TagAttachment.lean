/-
  Gherkin/Proofs/Session/TagAttachment.lean
  =========================================
  **Every tag goes to the next header.**

  Tags wait in one list until a header takes them, and headers are read in many
  places.  At every point of a reading the captions of what has been read are
  those of the draft (`Session.Captioned`).  A line either leaves the captions
  alone and may add waiting tags, or it adds one caption that takes all of them
  (`Captioned.feed`).  So the tags stay settled along a reading
  (`Settled.feedAll`), and at its end the captions are those of the tree.
-/
import Gherkin.Proofs.Session.Drafting
import Gherkin.Proofs.Session.Faithfulness

namespace Gherkin

open Text

/-! ## 1. Captions of drafts -/

def Place.captions : Place → List Caption
  | .top _ => []
  | .rules feature => feature.captions

def Draft.captions (d : Draft) : List Caption :=
  d.place.captions ++ d.group.captions ++ d.statement.elim [] (·.captions)

/-- A background is the first statement of its group. -/
def Draft.BackgroundFirst (d : Draft) : Prop :=
  ∀ statement, d.statement = some statement → statement.isScenario = false →
    d.group.background = none ∧ d.group.scenarios = []

namespace Draft

variable {d e : Draft} {line : Nat} {new : List Tag}

theorem captions_closed (h : d.BackgroundFirst) :
    d.closed.captions = d.group.captions ++ d.statement.elim [] (·.captions) := by
  unfold Draft.closed Group.closeAll
  cases hstatement : d.statement with
  | none => simp
  | some statement => exact Group.captions_close (h statement hstatement)

theorem captions_finish (hplace : d.place.Fits) (h : d.BackgroundFirst) :
    d.finish.captions = d.captions := by
  have hclosed := captions_closed h
  obtain ⟨place, group, statement, tags⟩ := d
  cases place with
  | top feature =>
    have hrules : feature.rules = [] := hplace
    simp [Draft.finish, Place.finish, Feature.captions, Feature.groups, Draft.captions,
      Place.captions, hrules, hclosed]
  | rules feature =>
    simp [Draft.finish, Place.finish, Feature.captions, Feature.groups, Draft.captions,
      Place.captions, hclosed]

/-- A line declares tags, or it is a header that takes those that wait. -/
theorem Next.captions (hplace : d.place.Fits) (hfirst : d.BackgroundFirst)
    (h : Draft.Next line new d e) :
    e.captions = d.captions ∧ e.tags = d.tags ++ new ∨
      new = [] ∧ e.tags = [] ∧ ∃ header : Header, header.line = line ∧
        e.captions = d.captions ++ [⟨header, d.tags⟩] := by
  cases h with
  | idle => exact .inl ⟨rfl, by simp⟩
  | tags new => exact .inl ⟨rfl, rfl⟩
  | @rule _ header hline =>
    refine .inr ⟨rfl, rfl, header, hline, ?_⟩
    -- The rule starts with everything else closed, and closing moves no caption.
    rw [← captions_finish hplace hfirst]
    simp [Draft.captions, Place.captions, Group.start, Group.captions, Group.caption,
      Group.statements]
  | @scenario _ header blocks hline hblocks =>
    refine .inr ⟨rfl, rfl, header, hline, ?_⟩
    have hnew : (Statement.scenario ⟨header, d.tags, [], [], blocks⟩).captions =
        [⟨header, d.tags⟩] := by
      rcases hblocks with rfl | rfl <;> rfl
    unfold Draft.captions
    rw [captions_closed hfirst, Option.elim_some, hnew]
    simp only [List.append_assoc]
  | @examples _ header statement blocks hline hstatement hblocks =>
    refine .inr ⟨rfl, rfl, header, hline, ?_⟩
    have hcaption : (statement.mapBlocks (· ++ [⟨header, d.tags, none⟩])).caption =
        statement.caption := by
      cases statement <;> rfl
    simp [Draft.captions, hstatement, Statement.captions, Statement.blockCaptions, hblocks,
      hcaption, Examples.caption]
  | @background _ header hline htags hstatement =>
    refine .inr ⟨rfl, htags, header, hline, ?_⟩
    simp [Draft.captions, hstatement, htags, Statement.captions, Statement.caption,
      Statement.blockCaptions, Statement.blocks?]
  | description text hstatement =>
    exact .inl ⟨rfl, by simp⟩
  | revision hstatement hrevised =>
    refine .inl ⟨?_, by simp⟩
    unfold Draft.captions
    rw [hstatement, Option.elim_some, Option.elim_some]
    unfold Statement.captions
    rw [hrevised.caption, hrevised.blockCaptions]

end Draft

/-! ## 2. One line -/

namespace Session

variable {s t : Session} {d : Draft} {raw : Text} {captions : List Caption}
  {declared : List Tag}

theorem Drafts.backgroundFirst (h : s.Drafts d) (hsound : s.Sound) : d.BackgroundFirst := by
  intro statement hstatement hkind
  rw [← h.statement] at hstatement
  obtain ⟨opened, hopened, rfl⟩ := Option.map_eq_some_iff.mp hstatement
  have hsame : (s.mode.attach opened).isScenario = opened.isScenario := by
    cases s.mode <;> simp [Mode.attach]
  obtain ⟨group, hgroup, hfresh⟩ := hsound.background opened hopened (hsame.symm.trans hkind)
  rw [h.group?, Option.some.injEq] at hgroup
  exact hgroup ▸ hfresh

/-- The captions of what a session has read. -/
def Captioned (s : Session) (captions : List Caption) : Prop :=
  s.mode = .start ∧ captions = [] ∨ ∃ d, s.Drafts d ∧ captions = d.captions

theorem Captioned.feed (h : s.Captioned captions) (hsound : s.Sound) (hfeed : s.feed raw = .ok t) :
    ∃ captions', t.Captioned captions' ∧
      (captions' = captions ∧ t.tags = s.tags ++ s.newTags raw ∨
        s.newTags raw = [] ∧ t.tags = [] ∧ ∃ header : Header, header.line = s.line + 1 ∧
          captions' = captions ++ [⟨header, s.tags⟩]) := by
  rcases h with ⟨hstart, rfl⟩ | ⟨d, hd, rfl⟩
  · rcases feed_of_start hstart hsound hfeed with ⟨hmode, htags⟩ | ⟨hnone, header, hline, hdraft⟩
    · exact ⟨[], .inl ⟨hmode, rfl⟩, .inl ⟨rfl, htags⟩⟩
    · refine ⟨_, .inr ⟨_, hdraft, rfl⟩, .inr ⟨hnone, hdraft.tags, header, hline, ?_⟩⟩
      rfl
  · obtain ⟨e, hnext, he⟩ := hd.feed hsound hfeed
    refine ⟨e.captions, .inr ⟨e, he, rfl⟩, ?_⟩
    rw [hd.tags, he.tags]
    exact hnext.captions hd.place (hd.backgroundFirst hsound)

theorem line_of_mem_newTags {tag : Tag} (h : tag ∈ s.newTags raw) : tag.line = s.line + 1 := by
  unfold newTags at h
  split at h
  · cases hrow : Tag.ofLine (s.line + 1) (trim raw) with
    | error word => simp [hrow, Except.toOption] at h
    | ok tags =>
      have hmem : tag ∈ tags := by simpa [hrow, Except.toOption] using h
      obtain ⟨name, -, rfl⟩ := Tag.mem_of_ofWords hrow hmem
      unfold Tag.ofWord
      split <;> rfl
  · simp at h

/-- The tags declared so far are settled, and none of them is below the last
    line that was read. -/
structure Settled (s : Session) (declared : List Tag) (captions : List Caption) : Prop where
  captioned : s.Captioned captions
  settled : TagsSettled declared captions s.tags
  headers : ∀ caption ∈ captions, caption.header.line ≤ s.line
  tags : ∀ tag ∈ s.tags, tag.line ≤ s.line

theorem Settled.feed (h : s.Settled declared captions) (hsound : s.Sound)
    (hfeed : s.feed raw = .ok t) :
    ∃ captions', t.Settled (declared ++ s.newTags raw) captions' := by
  have hline := (feed_setup hfeed).2
  have hheaders := h.headers
  have htags := h.tags
  obtain ⟨captions', hcaptioned, ⟨rfl, ht⟩ | ⟨hnone, ht, header, hheader, rfl⟩⟩ :=
    h.captioned.feed hsound hfeed
  · refine ⟨captions', hcaptioned, ?_, ?_, ?_⟩
    · rw [ht]
      apply h.settled.declare
      intro tag htag caption hcaption
      rw [line_of_mem_newTags htag]
      have := hheaders caption hcaption
      omega
    · intro caption hcaption
      have := hheaders caption hcaption
      omega
    · rw [ht]
      intro tag htag
      rcases List.mem_append.mp htag with hold | hnew
      · have := htags tag hold
        omega
      · rw [line_of_mem_newTags hnew, hline]
  · refine ⟨_, hcaptioned, ?_, ?_, by simp [ht]⟩
    · rw [hnone, ht, List.append_nil]
      apply h.settled.attach
      · intro caption hcaption
        have := hheaders caption hcaption
        omega
      · intro tag htag
        have := htags tag htag
        omega
    · intro caption hcaption
      rcases List.mem_append.mp hcaption with hold | hlast
      · have := hheaders caption hold
        omega
      · rw [List.mem_singleton.mp hlast, hline]
        exact hheader.le

/-! ## 3. Many lines -/

/-- The tags that the given lines declare, up to the first failure. -/
def declaredTags (s : Session) : List Text → List Tag
  | [] => []
  | raw :: rest =>
    s.newTags raw ++
      match s.feed raw with
      | .ok next => next.declaredTags rest
      | .error _ => []

theorem Settled.feedAll {raws : List Text} (h : s.Settled declared captions) (hsound : s.Sound)
    (hfeed : s.feedAll raws = .ok t) :
    ∃ captions', t.Settled (declared ++ s.declaredTags raws) captions' := by
  induction raws generalizing s declared captions with
  | nil =>
    obtain rfl : s = t := by simpa using hfeed
    refine ⟨captions, ?_⟩
    rw [declaredTags, List.append_nil]
    exact h
  | cons raw rest ih =>
    obtain ⟨next, hnext, hmore⟩ := ok_of_feedAll_cons hfeed
    obtain ⟨captions', hsettled⟩ := h.feed hsound hnext
    have hrest := ih hsettled (hsound.feed hnext) hmore
    rw [List.append_assoc] at hrest
    rw [declaredTags, hnext]
    exact hrest

/-- At the end of the text the captions are those of the tree. -/
theorem Captioned.finishFeature (h : s.Captioned captions) (hsound : s.Sound) :
    s.finishFeature.elim [] (·.captions) = captions := by
  rcases h with ⟨hstart, rfl⟩ | ⟨d, hd, rfl⟩
  · rw [finishFeature_of_start hsound hstart]
    rfl
  · rw [hd.finishFeature, Option.elim_some]
    exact Draft.captions_finish hd.place (hd.backgroundFirst hsound)

end Session

/-! ## 4. Parsers -/

namespace Parser

/-- The tags of all tag lines of a text. -/
def declaredTags (parser : Parser) (text : Text) (source : Option Text) : List Tag :=
  match parser.session .feature source with
  | .ok s => s.declaredTags (lines text)
  | .error _ => []

def pendingTags (parser : Parser) (text : Text) (source : Option Text) : List Tag :=
  match parser.read .feature text source with
  | .ok s => s.tags
  | .error _ => []

/-- The tag lines of a text are shared out among the headers of its tree. -/
theorem feature_tagsSettled {parser : Parser} {text : Text} {source : Option Text}
    {result : Option Feature} (h : parser.feature text source = .ok result) :
    TagsSettled (parser.declaredTags text source) (result.elim [] (·.captions))
      (parser.pendingTags text source) := by
  obtain ⟨s, t, hsession, hfeed, rfl⟩ := feature_eq_ok h
  have hsound := Session.Sound.of_session hsession
  have hopening : s.Settled [] [] := by
    have htags : s.tags = [] := by
      obtain ⟨standard, -, -, rfl⟩ := Session.session_eq_ok_iff.mp hsession
      rfl
    refine ⟨.inl ⟨start_of_session hsession, rfl⟩, ?_, by simp, by simp [htags]⟩
    rw [htags]
    exact ⟨rfl, .nil, by simp, by simp⟩
  obtain ⟨captions, hsettled⟩ := hopening.feedAll hsound hfeed
  have hread : parser.read .feature text source = .ok t := by
    unfold Parser.read
    rw [hsession]
    exact hfeed
  rw [hsettled.captioned.finishFeature (hsound.feedAll hfeed)]
  unfold declaredTags pendingTags
  rw [hsession, hread]
  exact hsettled.settled

/-- For instance where tags wait above a comment for a scenario, above a blank
    line for a block of Examples, and for nothing at the end. -/
theorem feature_tagsSettled_examples :
    ∃ text feature, standard.feature text none = .ok (some feature) ∧
      (standard.declaredTags text none).map (·.line) = [1, 3, 3, 7, 12, 13] ∧
      feature.captions.map (·.header.line) = [2, 5, 9] ∧
      feature.captions.map (·.tags.map (·.line)) = [[1], [3, 3], [7]] ∧
      (standard.pendingTags text none).map (·.line) = [12, 13] ∧
      TagsSettled (standard.declaredTags text none) feature.captions
        (standard.pendingTags text none) := by
  have hread : ∃ feature,
      standard.feature
          ("@a\nFeature: F\n@b @c\n# note\nScenario Outline: S\nGiven x\n@d\n\nExamples:\n" ++
            "| h |\n| 1 |\n@e\n@f").toList none = .ok (some feature) ∧
        feature.captions.map (·.header.line) = [2, 5, 9] ∧
        feature.captions.map (·.tags.map (·.line)) = [[1], [3, 3], [7]] := ⟨_, rfl, rfl, rfl⟩
  obtain ⟨feature, hfeature, hheaders, htags⟩ := hread
  exact ⟨_, feature, hfeature, rfl, hheaders, htags, rfl, feature_tagsSettled hfeature⟩

end Parser

end Gherkin
