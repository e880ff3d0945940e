/-
  Gherkin/Proofs/Cursor/Coherence.lean
  ====================================
  **The slots of a cursor fit together.**

  A cursor could hold a docstring at the stage of tables, or a table that belongs to
  nothing.  No reading produces one that does.  `Cursor.Coherent` says what each slot
  of a cursor tells about the others: when there is an open docstring, an open table,
  a pending tag, an open statement, a feature, a rule, and which type the next
  conjunction continues.

  The handlers keep these slots in step with a session (`agrees_feedAll`), and every
  session that occurs is sound.  What its mode and entry say is here read off the
  slots one by one.
-/
import Gherkin.Proofs.Cursor.Parsing

namespace Gherkin

namespace Cursor

/-- The current group has neither a background nor a scenario yet. -/
def FreshGroup (c : Cursor) : Prop :=
  ∃ group, c.group? = some group ∧ group.background = none ∧ group.scenarios = []

/-- What each slot of a cursor says about the others. -/
structure Coherent (c : Cursor) : Prop where
  block_iff : c.block.isSome = true ↔ c.stage = .docstring
  block_steps : c.block.isSome = true → c.hasSteps = true
  table_stage : c.table.isSome = true ∨ c.examplesOpen = true → c.stage = .table
  /-- Rows go either to the last Examples block of an outline or to a step. -/
  table_owner : c.stage = .table →
    (c.examplesOpen = true ∧
      ∃ blocks, c.statement.bind (·.blocks?) = some blocks ∧ blocks ≠ []) ∨
    (c.table.isSome = true ∧ c.hasSteps = true)
  tags_stage : c.tags ≠ [] → c.stage = .start ∨ c.stage = .tagged
  tags_ne_nil : c.stage = .tagged → c.tags ≠ []
  statement_open : c.stage ∈ [.background, .scenario, .steps, .docstring, .table] →
    c.statement.isSome = true
  group_fresh : c.stage ∈ [.feature, .rule] → c.statement = none ∧ c.FreshGroup
  entry_feature : c.entry = .feature → (c.feature = none ↔ c.stage = .start)
  entry_rule : c.entry = .rule → c.feature = none ∧ c.rule.isSome = true
  entry_steps : c.entry = .steps → c.feature = none ∧ c.rule = none ∧
    ∃ node, c.statement = some (.scenario node) ∧ node.isOutline = false
  /-- A conjunction continues the last step of the open statement. -/
  lastType : c.lastType = c.statement.bind (·.lastType)

end Cursor

namespace Session

variable {s : Session}

/-! ## 1. What the stage says -/

theorem exists_docstring_of_stage (h : s.mode.stage = .docstring) :
    ∃ block, s.mode = .docstring block := by
  cases hs : s.mode with
  | docstring block => exact ⟨block, rfl⟩
  | _ => simp [hs, Mode.stage] at h

theorem block?_isSome_iff : s.mode.block?.isSome = true ↔ s.mode.stage = .docstring := by
  cases s.mode <;> simp [Mode.block?, Mode.stage]

theorem stage_of_table? (h : s.mode.table?.isSome = true ∨ s.mode.examplesOpen = true) :
    s.mode.stage = .table := by
  cases hs : s.mode with
  | examples table => rfl
  | stepTable table => rfl
  | _ => simp [hs, Mode.table?, Mode.examplesOpen] at h

/-! ## 2. What a sound session says -/

theorem Sound.hasSteps_of_docstring (h : s.Sound) (hstage : s.mode.stage = .docstring) :
    s.hasSteps = true := by
  obtain ⟨block, hs⟩ := exists_docstring_of_stage hstage
  have hmode := h.mode
  rw [ModeFits, hs] at hmode
  exact hmode.2

theorem Sound.table_owner (h : s.Sound) (hstage : s.mode.stage = .table) :
    (s.mode.examplesOpen = true ∧
      ∃ blocks, s.statement.bind (·.blocks?) = some blocks ∧ blocks ≠ []) ∨
    (s.mode.table?.isSome = true ∧ s.hasSteps = true) := by
  have hmode := h.mode
  rcases mode_of_inTable (stage_eq_table_iff.mp hstage) with ⟨table, hs⟩ | ⟨table, hs⟩
  · rw [ModeFits, hs] at hmode
    exact .inl ⟨by rw [hs, Mode.examplesOpen], hmode.2⟩
  · rw [ModeFits, hs] at hmode
    exact .inr ⟨by rw [hs]; rfl, hmode.2⟩

/-- Tags wait in front of the feature header and behind a line of tags. -/
theorem Sound.stage_of_tags (h : s.Sound) (htags : s.tags ≠ []) :
    s.mode.stage = .start ∨ s.mode.stage = .tagged := by
  have hmode := h.mode
  unfold ModeFits at hmode
  cases hs : s.mode with
  | start => exact .inl rfl
  | tagged => exact .inr rfl
  | _ =>
    rw [hs] at hmode
    exact absurd hmode.1 htags

theorem Sound.tags_ne_nil (h : s.Sound) (hstage : s.mode.stage = .tagged) : s.tags ≠ [] := by
  have hs : s.mode = .tagged := by
    cases hs : s.mode with
    | tagged => rfl
    | _ => simp [hs, Mode.stage] at hstage
  have hmode := h.mode
  rw [ModeFits, hs] at hmode
  exact hmode

theorem isSome_statement_of_hasSteps (h : s.hasSteps = true) : s.statement.isSome = true := by
  obtain ⟨statement, hstatement, -⟩ := hasSteps_eq_true_iff.mp h
  rw [hstatement]
  rfl

/-- Below the header of a statement the statement is open. -/
theorem Sound.isSome_statement (h : s.Sound)
    (hstage : s.mode.stage ∈ [.background, .scenario, .steps, .docstring, .table]) :
    s.statement.isSome = true := by
  have hmode := h.mode
  unfold ModeFits at hmode
  cases hs : s.mode with
  | background | scenario | steps =>
    rw [hs] at hmode
    exact hmode.2
  | docstring block =>
    rw [hs] at hmode
    exact isSome_statement_of_hasSteps hmode.2
  | stepTable table =>
    rw [hs] at hmode
    exact isSome_statement_of_hasSteps hmode.2
  | examples table =>
    rw [hs] at hmode
    obtain ⟨-, blocks, hblocks, -⟩ := hmode
    obtain ⟨statement, hstatement, -⟩ := Option.bind_eq_some_iff.mp hblocks
    rw [hstatement]
    rfl
  | start | feature | rule | tagged => simp [hs, Mode.stage] at hstage

theorem head_of_stage (h : s.mode.stage ∈ [.feature, .rule]) :
    s.mode = .feature ∨ s.mode = .rule := by
  cases hs : s.mode with
  | feature => exact .inl rfl
  | rule => exact .inr rfl
  | _ => simp [hs, Mode.stage] at h

theorem Sound.feature_eq_none_iff (h : s.Sound) (hentry : s.entry = .feature) :
    s.feature = none ↔ s.mode.stage = .start := by
  have hfits := h.entry
  simp only [EntryFits, hentry] at hfits
  constructor
  · intro hnone
    by_contra hstage
    have hsome := hfits fun hstart => hstage (by rw [hstart]; rfl)
    rw [hnone] at hsome
    exact Bool.noConfusion hsome
  · intro hstage
    have hs : s.mode = .start := by
      cases hs : s.mode with
      | start => rfl
      | _ => simp [hs, Mode.stage] at hstage
    have hmode := h.mode
    rw [ModeFits, hs] at hmode
    exact hmode.2.1

theorem Sound.of_entry_rule (h : s.Sound) (hentry : s.entry = .rule) :
    s.feature = none ∧ s.rule.isSome = true := by
  simpa only [EntryFits, hentry] using h.entry

/-- In a text of steps the open statement is a plain scenario. -/
theorem Sound.of_entry_steps (h : s.Sound) (hentry : s.entry = .steps) :
    s.feature = none ∧ s.rule = none ∧
      ∃ node, s.statement = some (.scenario node) ∧ node.isOutline = false := by
  have hfits := h.entry
  simp only [EntryFits, hentry] at hfits
  obtain ⟨hfeature, hrule, statement, hstatement, hkind, hnone⟩ := hfits
  refine ⟨hfeature, hrule, ?_⟩
  cases statement with
  | background node => exact Bool.noConfusion hkind
  | scenario node =>
    exact ⟨node, hstatement, by simpa [Scenario.isOutline, Statement.blocks?] using hnone⟩

/-- The cursor of a sound session is coherent. -/
theorem Sound.coherent_cursor (h : s.Sound) (log : List Record) : (s.cursor log).Coherent where
  block_iff := block?_isSome_iff
  block_steps hblock := h.hasSteps_of_docstring (block?_isSome_iff.mp hblock)
  table_stage := stage_of_table?
  table_owner := h.table_owner
  tags_stage := h.stage_of_tags
  tags_ne_nil := h.tags_ne_nil
  statement_open := h.isSome_statement
  group_fresh hstage := by
    obtain ⟨-, hstatement, group, hgroup, hfresh⟩ := h.mode.head (head_of_stage hstage)
    exact ⟨hstatement, group, (s.cursor_group? log).trans hgroup, hfresh⟩
  entry_feature := h.feature_eq_none_iff
  entry_rule := h.of_entry_rule
  entry_steps := h.of_entry_steps
  lastType := h.lastType

end Session

namespace Cursor

/-! ## 3. Every reading -/

/-- Every cursor that a reading goes through is coherent, whatever is read and whatever
    the keywords are. -/
theorem coherent_of_feedAll {parser : Parser} {entry : Entry} {source : Option Text}
    {raws : List Text} {c d : Cursor} (hopen : parser.cursor entry source = .ok c)
    (hfeed : (Handling.feedAll raws).runOn c = (.ok (), d)) : d.Coherent := by
  rw [Parser.cursor_eq_map_session] at hopen
  cases hsession : parser.session entry source with
  | error failure => simp [hsession, Except.map] at hopen
  | ok s =>
    rw [hsession] at hopen
    obtain rfl : s.cursor [] = c := Except.ok.inj hopen
    obtain ⟨notes, hagrees, -⟩ := Handling.agrees_feedAll s raws []
    rw [hfeed] at hagrees
    cases hread : s.feedAll raws with
    | error failure =>
      rw [hread] at hagrees
      exact absurd hagrees.1 (by simp)
    | ok t =>
      rw [hread] at hagrees
      obtain rfl : d = t.cursor ([] ++ notes) := congrArg Prod.snd hagrees
      exact ((Session.Sound.of_session hsession).feedAll hread).coherent_cursor _

/-- For instance in the middle of a table below a step of an outline. -/
theorem coherent_of_feedAll_stepTable :
    ∃ c d : Cursor, Parser.standard.cursor .feature none = .ok c ∧
      (Handling.feedAll (Builtin.texts
        ["@a", "Feature: F", "Scenario Outline: S", "Given a:", "| x |"])).runOn c = (.ok (), d) ∧
      d.stage = .table ∧ d.table.isSome = true ∧ d.Coherent := by
  -- the lines are read in a session, and handled as they are read there
  have hrun : ∃ s t : Session, Parser.standard.session .feature none = .ok s ∧
      s.feedAll (Builtin.texts
        ["@a", "Feature: F", "Scenario Outline: S", "Given a:", "| x |"]) = .ok t ∧
      t.mode.stage = .table ∧ t.mode.table?.isSome = true := ⟨_, _, rfl, rfl, rfl, rfl⟩
  obtain ⟨s, t, hsession, hread, hstage, htable⟩ := hrun
  have hopen : Parser.standard.cursor .feature none = .ok (s.cursor []) := by
    rw [Parser.cursor_eq_map_session, hsession]
    rfl
  obtain ⟨notes, hagrees, -⟩ := Handling.agrees_feedAll s (Builtin.texts
    ["@a", "Feature: F", "Scenario Outline: S", "Given a:", "| x |"]) []
  rw [hread] at hagrees
  exact ⟨s.cursor [], t.cursor ([] ++ notes), hopen, hagrees, hstage, htable,
    coherent_of_feedAll hopen hagrees⟩

end Cursor

end Gherkin
