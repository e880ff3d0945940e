/-
  Gherkin/Proofs/Session/Drafting.lean
  ====================================
  **What one line does to the tree.**

  At every point of a reading there is the tree that would come out if the text
  ended there.  `Session.Drafts` ties the slots of a session to the draft of
  that tree; a table that is still open counts as read.  `Draft.Next` lists what
  a line can do to the draft: nothing, more tags, one more header, a line of a
  description, or a change inside the open statement that keeps its header and
  every step but the last.  Nothing else happens (`Drafts.feed`).

  An invariant of the tree is proved by cases on `Draft.Next`, without a look at
  the lines.
-/
import Gherkin.Proofs.RoundTrip.Lines
import Gherkin.Proofs.Session.Refusal
import Gherkin.Proofs.Tree.Growth

namespace Gherkin

open Text

/-! ## 1. Drafts of sessions -/

/-- The tree that a draft becomes at the end of the text. -/
def Draft.finish (d : Draft) : Feature := d.place.finish d.closed

/-- There are no rules before the first one. -/
def Place.Fits : Place → Prop
  | .top feature => feature.rules = []
  | .rules _ => True

theorem Mode.attach_of_isOpen {mode : Mode} (h : mode.isOpen = true) : mode.attach = id := by
  cases mode <;> simp_all [Mode.isOpen, Mode.attach]

namespace Session

structure Drafts (s : Session) (d : Draft) : Prop where
  place : d.place.Fits
  tags : s.tags = d.tags
  feature : s.feature = some (d.place.feature d.group)
  rule : s.rule = d.place.rule d.group
  statement : s.statement.map s.mode.attach = d.statement

variable {s t : Session} {d : Draft} {raw : Text} {kind : LineKind}

theorem Drafts.finishFeature (h : s.Drafts d) : s.finishFeature = some d.finish := by
  obtain ⟨place, group, statement, tags⟩ := d
  have hfeature := h.feature
  have hrule := h.rule
  have hstatement := h.statement
  unfold Session.finishFeature
  rw [closeTable_eq, closeStatement_eq, closeRule_eq]
  cases place <;>
    simp_all [Place.feature, Place.rule, Place.finish, Draft.finish, Draft.closed]

theorem Drafts.group? (h : s.Drafts d) : s.group? = some d.group := by
  obtain ⟨place, group, statement, tags⟩ := d
  have hfeature := h.feature
  have hrule := h.rule
  cases place <;> simp_all [Session.group?, Place.feature, Place.rule]

/-- Where no table is open, the open statement is that of the draft. -/
theorem Drafts.statement_eq (h : s.Drafts d) (hattach : s.mode.attach = id) :
    s.statement = d.statement := by
  have hstatement := h.statement
  rw [hattach, Option.map_id_fun, id_eq] at hstatement
  exact hstatement

theorem Drafts.closeTable (h : s.Drafts d) : s.closeTable.Drafts d := by
  rw [closeTable_eq]
  refine ⟨h.place, h.tags, h.feature, h.rule, ?_⟩
  have hleft : s.mode.left.attach = id := by cases s.mode <;> rfl
  simp [hleft, h.statement]

theorem Drafts.facing (h : s.Drafts d) (raw : Text) : (s.facing raw).Drafts d := by
  have henter : (s.enter raw).Drafts d := ⟨h.place, h.tags, h.feature, h.rule, h.statement⟩
  exact facing_cases s raw henter henter.closeTable

theorem Drafts.closeStatement (h : s.Drafts d) (hattach : s.mode.attach = id) :
    s.closeStatement.feature = some (d.place.feature d.closed) ∧
      s.closeStatement.rule = d.place.rule d.closed := by
  obtain ⟨place, group, statement, tags⟩ := d
  have hfeature := h.feature
  have hrule := h.rule
  have hstatement := h.statement_eq hattach
  rw [closeStatement_eq]
  cases place <;> simp_all [Place.feature, Place.rule, Draft.closed]

theorem Drafts.mapGroup (h : s.Drafts d) (f : Group → Group) :
    (s.mapGroup f).feature = some (d.place.feature (f d.group)) ∧
      (s.mapGroup f).rule = d.place.rule (f d.group) := by
  obtain ⟨place, group, statement, tags⟩ := d
  have hfeature := h.feature
  have hrule := h.rule
  rw [mapGroup_eq]
  cases place <;> simp_all [Place.feature, Place.rule]

end Session

/-! ## 2. What a line does to a draft -/

/-- A statement has been changed below its header.  It is still what it was, its
    Examples blocks have at most other tables, and at most its last step has
    been changed. -/
structure Statement.Revised (a b : Statement) : Prop where
  kind : b.isScenario = a.isScenario
  caption : b.caption = a.caption
  blockCaptions : b.blockCaptions = a.blockCaptions
  steps : Lengthens (fun _ _ => True) a.steps b.steps

def LineKind.newTags (kind : LineKind) (line : Nat) (raw : Text) : List Tag :=
  if kind = .tags then (Tag.ofLine line (trim raw)).toOption.getD [] else []

/-- `Draft.Next line new d e`: what a line with the given number, which declares
    the given tags, can do to a draft. -/
inductive Draft.Next (line : Nat) : List Tag → Draft → Draft → Prop
  | idle {d : Draft} : Next line [] d d
  | tags {d : Draft} (new : List Tag) : Next line new d { d with tags := d.tags ++ new }
  | rule {d : Draft} {header : Header} (hline : header.line = line) :
      Next line [] d ⟨.rules d.finish, .start header d.tags, none, []⟩
  | scenario {d : Draft} {header : Header} {blocks : Option (List Examples)}
      (hline : header.line = line) (hblocks : blocks = none ∨ blocks = some []) :
      Next line [] d ⟨d.place, d.closed, some (.scenario ⟨header, d.tags, [], [], blocks⟩), []⟩
  | examples {d : Draft} {header : Header} {statement : Statement} {blocks : List Examples}
      (hline : header.line = line) (hstatement : d.statement = some statement)
      (hblocks : statement.blocks? = some blocks) :
      Next line [] d { d with
        statement := some (statement.mapBlocks (· ++ [⟨header, d.tags, none⟩]))
        tags := [] }
  | background {d : Draft} {header : Header}
      (hline : header.line = line) (htags : d.tags = []) (hstatement : d.statement = none) :
      Next line [] d { d with statement := some (.background ⟨header, [], []⟩) }
  | description {d : Draft} (text : Text) (hstatement : d.statement = none) :
      Next line [] d { d with group := d.group.describe text }
  | revision {d : Draft} {a b : Statement} (hstatement : d.statement = some a)
      (hrevised : a.Revised b) : Next line [] d { d with statement := some b }

namespace Statement

theorem caption_mapSteps (f : List Step → List Step) (statement : Statement) :
    (statement.mapSteps f).caption = statement.caption := by
  cases statement <;> rfl

theorem Revised.mapSteps {f g : List Step → List Step}
    (h : ∀ steps, Lengthens (fun _ _ => True) (f steps) (g steps)) (statement : Statement) :
    (statement.mapSteps f).Revised (statement.mapSteps g) := by
  constructor
  · rw [isScenario_mapSteps, isScenario_mapSteps]
  · rw [caption_mapSteps, caption_mapSteps]
  · unfold Statement.blockCaptions
    rw [blocks?_mapSteps, blocks?_mapSteps]
  · rw [steps_mapSteps, steps_mapSteps]
    exact h statement.steps

theorem mapSteps_id (statement : Statement) : statement.mapSteps id = statement := by
  cases statement <;> rfl

theorem Revised.addStep (statement : Statement) (step : Step) :
    statement.Revised (statement.addStep step) := by
  have h := Revised.mapSteps (f := id) (g := (· ++ [step]))
    (fun steps => Lengthens.append (fun _ => trivial) steps [step]) statement
  rwa [mapSteps_id] at h

theorem Revised.changeLastStep (f g : Step → Step) (statement : Statement) :
    (statement.mapLastStep f).Revised (statement.mapLastStep g) :=
  Revised.mapSteps (fun steps => Lengthens.mapLast (fun _ => trivial) steps) statement

theorem mapLast_id {α : Type} (list : List α) : mapLast id list = list := by
  induction list using mapLast.induct with
  | case1 => rfl
  | case2 a => rfl
  | case3 a b rest ih => simpa [mapLast] using ih

theorem Revised.mapLastStep (f : Step → Step) (statement : Statement) :
    statement.Revised (statement.mapLastStep f) := by
  have h := changeLastStep id f statement
  have hsame : statement.mapLastStep id = statement := by
    unfold Statement.mapLastStep
    have hid : mapLast (id : Step → Step) = id := funext mapLast_id
    rw [hid, mapSteps_id]
  rwa [hsame] at h

theorem Revised.describe (line : Text) (statement : Statement) :
    statement.Revised (statement.describe line) := by
  constructor
  · simp
  · cases statement <;> rfl
  · unfold Statement.blockCaptions
    rw [blocks?_describe]
  · rw [steps_describe]
    exact Lengthens.refl (fun _ => trivial) statement.steps

/-- A table that is attached to a block leaves what stands above it alone. -/
theorem blockCaptions_attach (table : Option Table) (statement : Statement) :
    ((Mode.examples table).attach statement).blockCaptions = statement.blockCaptions := by
  unfold blockCaptions
  cases hblocks : statement.blocks? with
  | none => simp [Mode.attach, hblocks]
  | some blocks =>
    have hmap := map_mapLast (f := fun block : Examples => { block with table := table })
      (g := Examples.caption) (fun _ => rfl) blocks
    simp [Mode.attach, hblocks, hmap]

theorem Revised.table (old new : Option Table) (statement : Statement) :
    ((Mode.examples old).attach statement).Revised ((Mode.examples new).attach statement) := by
  constructor
  · simp [Mode.attach]
  · cases statement <;> rfl
  · rw [blockCaptions_attach, blockCaptions_attach]
  · simp only [Mode.attach, steps_mapBlocks]
    exact Lengthens.refl (fun _ => trivial) statement.steps

end Statement

namespace Session

variable {s t : Session} {d : Draft} {raw : Text} {kind : LineKind}

/-- A new block has no table, so there is nothing to attach to it yet. -/
theorem attach_addBlock (statement : Statement) (block : Examples) (htable : block.table = none) :
    (Mode.examples none).attach (statement.mapBlocks (· ++ [block])) =
      statement.mapBlocks (· ++ [block]) := by
  have hblock : ({ block with table := none } : Examples) = block := by
    rw [← htable]
  cases statement with
  | background node => rfl
  | scenario node =>
    obtain ⟨_, _, _, _, _ | blocks⟩ := node
    · rfl
    · simp [Mode.attach, Statement.mapBlocks, mapLast_append_singleton, hblock]

theorem Sound.open_of_examples {table : Option Table} (h : s.Sound)
    (hs : s.mode = .examples table) : ∃ statement, s.statement = some statement := by
  have hmode := h.mode
  rw [ModeFits, hs] at hmode
  obtain ⟨-, blocks, hblocks, -⟩ := hmode
  obtain ⟨statement, hstatement, -⟩ := Option.bind_eq_some_iff.mp hblocks
  exact ⟨statement, hstatement⟩

theorem statement_mapStatement {f : Statement → Statement} {statement : Statement}
    (h : s.statement = some statement) : (s.mapStatement f).statement = some (f statement) := by
  simp [mapStatement, h]

/-- A line that changes the open statement and nothing else of the tree. -/
theorem Drafts.revise (h : s.Drafts d) {old new : Statement} {line : Nat}
    (hold : s.statement = some old) (hnew : t.statement = some new) (htags : t.tags = s.tags)
    (hfeature : t.feature = s.feature) (hrule : t.rule = s.rule)
    (hrevised : (s.mode.attach old).Revised (t.mode.attach new)) :
    ∃ e, Draft.Next line [] d e ∧ t.Drafts e := by
  have hd : d.statement = some (s.mode.attach old) := by
    rw [← h.statement, hold, Option.map_some]
  refine ⟨_, .revision hd hrevised, ⟨h.place, htags.trans h.tags, hfeature.trans h.feature,
    hrule.trans h.rule, ?_⟩⟩
  rw [hnew, Option.map_some]

theorem Drafts.takes (h : s.Drafts d) (hsound : s.Sound) (htakes : Takes s raw kind t) :
    ∃ e, Draft.Next s.line (kind.newTags s.line raw) d e ∧ t.Drafts e := by
  have hmode := hsound.mode
  have hstart : s.mode ≠ .start := by
    intro hs
    rw [ModeFits, hs] at hmode
    rw [h.feature] at hmode
    simp at hmode
  cases htakes with
  | @tags tags hs hlead hrow =>
    have hopen : s.mode.isOpen = true := hs.resolve_left hstart
    have hnew : LineKind.tags.newTags s.line raw = tags := by
      simp [LineKind.newTags, hrow, Except.toOption]
    rw [hnew]
    refine ⟨_, .tags tags, ⟨h.place, ?_, h.feature, h.rule, ?_⟩⟩
    · exact congrArg (· ++ tags) h.tags
    · simp [hstart, Mode.attach, h.statement_eq (Mode.attach_of_isOpen hopen)]
  | feature hs hfits => exact absurd hs hstart
  | @rule header hs hfits hfeature =>
    have hline := (keywords_header?_of_header? hfits).2
    obtain ⟨hclosedFeature, hclosedRule⟩ := h.closeStatement (Mode.attach_of_isOpen hs)
    refine ⟨_, .rule hline, ⟨trivial, rfl, ?_, ?_, ?_⟩⟩
    · -- Closing the old rule and finishing the draft put it in the same place.
      rw [closeRule_eq]
      simp only [hclosedFeature, hclosedRule]
      obtain ⟨place, group, statement, tags⟩ := d
      cases place <;> simp [Place.feature, Place.rule, Place.finish, Draft.finish]
    · simp [Place.rule, h.tags]
    · rw [closeRule_eq, closeStatement_eq]
      rfl
  | @scenario header category blocks hs hknown hfits hgroup =>
    have hline := (keywords_header?_of_header? hfits).2
    have hclosed := h.closeStatement (Mode.attach_of_isOpen hs)
    have hblocks : blocks = none ∨ blocks = some [] := hknown.imp And.right And.right
    refine ⟨_, .scenario hline hblocks, ⟨h.place, rfl, hclosed.1, hclosed.2, ?_⟩⟩
    rw [startStatement_eq, ← h.tags]
    rfl
  | @examples header blocks hs hfits houtline =>
    have hline := (keywords_header?_of_header? hfits).2
    obtain ⟨statement, hstatement, hblocks⟩ := Option.bind_eq_some_iff.mp houtline
    have hd : d.statement = some statement := by
      rw [← h.statement_eq (Mode.attach_of_isOpen hs), hstatement]
    refine ⟨_, .examples hline hd hblocks, ⟨h.place, rfl, h.feature, h.rule, ?_⟩⟩
    simp only [mapStatement, hstatement, Option.map_some]
    rw [attach_addBlock _ _ rfl, h.tags]
  | @background header hs hfits htags hfresh =>
    have hline := (keywords_header?_of_header? hfits).2
    obtain ⟨-, hstatement, -⟩ := hmode.head hs
    have hsame : s.closeStatement = s := by simp [Session.closeStatement, hstatement]
    have hd : d.statement = none := by rw [← h.statement, hstatement]; rfl
    refine ⟨_, .background hline (h.tags ▸ htags) hd, ?_⟩
    rw [startStatement_eq, hsame]
    exact ⟨h.place, h.tags, h.feature, h.rule, rfl⟩
  | groupDescription hs htagless hplain =>
    obtain ⟨-, hstatement, -⟩ := hmode.head hs
    obtain ⟨hfeature, hrule⟩ := h.mapGroup (·.describe (trim raw))
    have hd : d.statement = none := by rw [← h.statement, hstatement]; rfl
    refine ⟨_, .description (trim raw) hd, ⟨h.place, ?_, hfeature, hrule, ?_⟩⟩
    · rw [mapGroup_eq]
      exact h.tags
    · rw [mapGroup_eq, hd]
      simp [hstatement]
  | statementDescription hs htagless hstepless hplain =>
    have hsteps : s.mode.hasStepLines = true := by rcases hs with hs | hs <;> rw [hs] <;> rfl
    obtain ⟨-, statement, hstatement⟩ := hmode.stepLines hsteps
    refine h.revise hstatement (statement_mapStatement hstatement) rfl rfl rfl ?_
    have hattach := Mode.attach_of_isOpen (Mode.isOpen_of_hasStepLines s.mode hsteps)
    rw [mapStatement, hattach]
    exact .describe (trim raw) statement
  | step hs hfits hresolved =>
    obtain ⟨-, statement, hstatement⟩ := hmode.stepLines hs
    refine h.revise hstatement (statement_mapStatement hstatement) rfl rfl rfl ?_
    rw [Mode.attach_of_isOpen (Mode.isOpen_of_hasStepLines s.mode hs)]
    exact .addStep statement _
  | fence hs hfits hsteps =>
    refine ⟨d, .idle, ⟨h.place, h.tags, h.feature, h.rule, ?_⟩⟩
    simp [Mode.attach, h.statement_eq (by rw [hs]; rfl)]
  | closingFence hs hcloses =>
    rw [ModeFits, hs] at hmode
    obtain ⟨statement, hstatement, -⟩ := hasSteps_eq_true_iff.mp hmode.2
    refine h.revise hstatement (statement_mapStatement hstatement) rfl rfl rfl ?_
    rw [hs]
    exact .mapLastStep _ statement
  | docstring hs hinside hpush =>
    refine ⟨d, .idle, ⟨h.place, h.tags, h.feature, h.rule, ?_⟩⟩
    simp [Mode.attach, h.statement_eq (by rw [hs]; rfl)]
  | firstRow hs hlead hsteps =>
    obtain ⟨statement, hstatement, -⟩ := hasSteps_eq_true_iff.mp hsteps
    refine h.revise hstatement hstatement rfl rfl rfl ?_
    rw [hs]
    exact .mapLastStep _ statement
  | examplesHeadings hs =>
    obtain ⟨statement, hstatement⟩ := hsound.open_of_examples hs
    refine h.revise hstatement hstatement rfl rfl rfl ?_
    rw [hs]
    exact .table none _ statement
  | examplesRow hs hpush =>
    obtain ⟨statement, hstatement⟩ := hsound.open_of_examples hs
    refine h.revise hstatement hstatement rfl rfl rfl ?_
    rw [hs]
    exact .table _ _ statement
  | nextRow hs hpush =>
    rw [ModeFits, hs] at hmode
    obtain ⟨statement, hstatement, -⟩ := hasSteps_eq_true_iff.mp hmode.2
    refine h.revise hstatement hstatement rfl rfl rfl ?_
    rw [hs]
    exact .changeLastStep _ _ statement

/-! ## 3. Lines of tags -/

/-- Whether a line is one of tags.  Where steps may stand, a line that is also a
    step is read as one. -/
def isTagLine (s : Session) (raw : Text) : Bool :=
  !s.inDocstring && leads '@' (trim raw) &&
    !(s.mode.left.hasStepLines && (s.keywords.step? (trim raw)).isSome)

def newTags (s : Session) (raw : Text) : List Tag :=
  if s.isTagLine raw then (Tag.ofLine (s.line + 1) (trim raw)).toOption.getD [] else []

theorem isTagLine_iff (s : Session) (raw : Text) :
    s.isTagLine raw = true ↔ (s.facing raw).kind? raw = some .tags := by
  by_cases hlead : leads '@' (trim raw) = true
  · -- No row and no fence begins like a tag, so only a step can come first.
    have hrow : leads '|' (trim raw) = false := leads_eq_false_of_leads hlead (by decide)
    have hfence : Fence.open? (trimStart raw) = none := by
      apply Fence.open?_eq_none
      · rw [leads_trimStart]
        exact leads_eq_false_of_leads hlead (by decide)
      · rw [leads_trimStart]
        exact leads_eq_false_of_leads hlead (by decide)
    have hfacing : s.facing raw = (s.enter raw).closeTable := facing_eq_closeTable fun _ => hrow
    have hkeywords : (s.facing raw).keywords = s.keywords :=
      congrArg (·.keywords) (facing_language s raw)
    have hmode : (s.facing raw).mode = s.mode.left := by
      rw [hfacing, closeTable_eq]
      rfl
    rw [kind?_eq, hmode]
    unfold isTagLine inDocstring
    cases s.mode <;>
      cases hstep : s.keywords.step? (trim raw) <;>
      simp [Mode.left, Mode.hasStepLines, Mode.kinds, taggableKinds, LineKind.fits, hkeywords,
        hlead, hfence, hstep]
  · constructor
    · intro htags
      simp [isTagLine, hlead] at htags
    · intro hkind
      exact absurd (fits_of_kind? hkind) hlead

theorem newTags_of_kind? (hkind : (s.facing raw).kind? raw = some kind) :
    s.newTags raw = kind.newTags (s.line + 1) raw := by
  have hiff := s.isTagLine_iff raw
  rw [hkind, Option.some.injEq] at hiff
  by_cases htags : kind = .tags
  · simp [newTags, LineKind.newTags, hiff.mpr htags, htags]
  · simp [newTags, LineKind.newTags, mt hiff.mp htags, htags]

theorem newTags_of_idle (h : (s.skips raw || s.isComment raw) = true) : s.newTags raw = [] := by
  have hlead : s.inDocstring = true ∨ leads '@' (trim raw) = false := by
    rw [Bool.or_eq_true] at h
    rcases h with hskips | hcomment
    · simp only [skips, Bool.and_eq_true, List.isEmpty_iff] at hskips
      rw [hskips.2]
      exact .inr rfl
    · simp only [isComment, Bool.and_eq_true] at hcomment
      exact .inr (leads_eq_false_of_leads hcomment.2 (by decide))
  have hno : s.isTagLine raw = false := by
    rcases hlead with hdoc | hlead
    · simp [isTagLine, hdoc]
    · simp [isTagLine, hlead]
  simp [newTags, hno]

/-! ## 4. One line -/

theorem Drafts.feed (h : s.Drafts d) (hsound : s.Sound) (hfeed : s.feed raw = .ok t) :
    ∃ e, Draft.Next (s.line + 1) (s.newTags raw) d e ∧ t.Drafts e := by
  rcases feed_cases hfeed with ⟨hidle, chosen, rfl, -⟩ | ⟨-, -, kind, hkind, htakes⟩
  · rw [newTags_of_idle hidle]
    exact ⟨d, .idle, ⟨h.place, h.tags, h.feature, h.rule, h.statement⟩⟩
  · have hnext := (h.facing raw).takes (hsound.facing raw) htakes
    rw [facing_line] at hnext
    rw [newTags_of_kind? hkind]
    exact hnext

/-- Before the feature header there is no draft.  The header is what makes one,
    and until then lines only declare tags. -/
theorem feed_of_start (hstart : s.mode = .start) (hsound : s.Sound) (hfeed : s.feed raw = .ok t) :
    t.mode = .start ∧ t.tags = s.tags ++ s.newTags raw ∨
      s.newTags raw = [] ∧ ∃ header : Header, header.line = s.line + 1 ∧
        t.Drafts ⟨.top ⟨s.source, s.language.code, .start header s.tags, []⟩,
          .start header s.tags, none, []⟩ := by
  have hmode := hsound.mode
  rw [ModeFits, hstart] at hmode
  obtain ⟨-, -, hrule, hstatement⟩ := hmode
  rcases feed_cases hfeed with ⟨hidle, chosen, rfl, -⟩ | ⟨-, -, kind, hkind, htakes⟩
  · rw [newTags_of_idle hidle]
    exact .inl ⟨hstart, by simp⟩
  · rw [newTags_of_kind? hkind]
    have hfacing : s.facing raw = s.enter raw := by
      unfold Session.facing leaveTable inTable
      simp [Session.enter, hstart]
    have hmem := List.mem_of_find?_eq_some hkind
    rw [hfacing] at htakes hmem
    have hkinds : kind = .tags ∨ kind = .feature := by
      have hs : (s.enter raw).mode = .start := hstart
      simpa [hs, Mode.kinds] using hmem
    rcases hkinds with rfl | rfl
    · cases htakes with
      | @tags tags hs hlead hrow =>
        have hrow : Tag.ofLine (s.line + 1) (trim raw) = .ok tags := hrow
        refine .inl ⟨by simp [Session.enter, hstart], ?_⟩
        simp [LineKind.newTags, hrow, Except.toOption, Session.enter]
    · cases htakes with
      | @feature header hs hfits =>
        have hline := (keywords_header?_of_header? hfits).2
        refine .inr ⟨rfl, header, hline, ⟨rfl, rfl, ?_, hrule, ?_⟩⟩
        · rw [enter_language]
          rfl
        · exact congrArg _ hstatement

/-! ## 5. A whole reading -/

theorem finishFeature_of_start (hsound : s.Sound) (hstart : s.mode = .start) :
    s.finishFeature = none := by
  have hmode := hsound.mode
  rw [ModeFits, hstart] at hmode
  obtain ⟨-, hfeature, -⟩ := hmode
  unfold Session.finishFeature
  rw [closeTable_eq, closeStatement_eq, closeRule_eq]
  simp [hfeature]

theorem drafts_of_feedAll {raws : List Text} (hsound : s.Sound) (hstart : s.mode = .start)
    (hfeed : s.feedAll raws = .ok t) : t.Sound ∧ (t.mode = .start ∨ ∃ d, t.Drafts d) := by
  refine feedAll_induction (P := fun u _ => u.Sound ∧ (u.mode = .start ∨ ∃ d, u.Drafts d))
    hfeed ⟨hsound, .inl hstart⟩ ?_
  rintro u raw rest next ⟨hu, hstart | ⟨d, hd⟩⟩ hnext
  · refine ⟨hu.feed hnext, ?_⟩
    rcases feed_of_start hstart hu hnext with ⟨hmode, -⟩ | ⟨-, header, -, hdraft⟩
    · exact .inl hmode
    · exact .inr ⟨_, hdraft⟩
  · obtain ⟨e, -, he⟩ := hd.feed hu hnext
    exact ⟨hu.feed hnext, .inr ⟨e, he⟩⟩

end Session

namespace Parser

theorem start_of_session {parser : Parser} {source : Option Text} {s : Session}
    (h : parser.session .feature source = .ok s) : s.mode = .start := by
  obtain ⟨standard, -, -, rfl⟩ := Session.session_eq_ok_iff.mp h
  rfl

end Parser

end Gherkin
