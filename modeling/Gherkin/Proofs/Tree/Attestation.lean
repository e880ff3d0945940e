/-
  Gherkin/Proofs/Tree/Attestation.lean
  ====================================
  **Nodes that stand in a source.**

  A node is *attested* by a source when the line it names is in the source and
  reads as the node says.  The source is a relation between numbers and lines,
  so that the same notion serves whoever knows something about the lines.

  Attaching an argument, adding a step or a description line and moving a
  statement into its group keep what is attested; these are the changes that a
  reading makes to a node after it has been created.
-/
import Gherkin.Proofs.Keyword.Clarity
import Gherkin.Proofs.Session.Slots
import Gherkin.Proofs.Tree.Nodes

namespace Gherkin

open Text

/-- A source: `src n raw` says that the line with number `n` is `raw`. -/
abbrev Source := Nat → Text → Prop

section Nodes

variable (src : Source) (keywords : Keywords)

/-! ## 1. Attested nodes -/

def Tag.Attested (tag : Tag) : Prop :=
  ∃ raw name, src tag.line raw ∧ '@' :: name ∈ words raw ∧ tag = Tag.ofWord name tag.line

def Header.Attested (category : Category) (header : Header) : Prop :=
  ∃ raw, src header.line raw ∧
    keywords.header? category (trim raw) = some (header.keyword, header.title)

/-- The headings and the rows are the cells of their lines, all of one width. -/
structure Table.Attested (table : Table) : Prop where
  headings : ∃ raw, src table.line raw ∧ table.headings = Cells.read (trim raw)
  rows : ∀ row ∈ table.rows, row.cells.length = table.headings.length ∧
    ∃ raw, src row.line raw ∧ row.cells = Cells.read (trim raw)

/-- The fence of the block stands on its line, and the block holds lines of the
    source without their margin. -/
structure Block.Attested (block : Block) : Prop where
  fence : ∃ raw contentType, src block.line raw ∧
    Fence.open? (trimStart raw) = some (block.fence, contentType) ∧
    block.contentType = if contentType.isEmpty then plainText else contentType
  lines : ∀ line ∈ block.lines, ∃ n raw, src n raw ∧ line = trimEnd (raw.drop block.margin)

/-- The docstring is that of an attested block. -/
def Docstring.Attested (docstring : Docstring) : Prop :=
  ∃ block : Block, block.Attested src ∧ docstring = block.docstring

/-- The line of the step is a step with its keyword, its type behind `last` and
    its text, less the colon that an argument took over. -/
structure Step.Attested (last : Option StepType) (step : Step) : Prop where
  line : ∃ raw found, src step.line raw ∧ keywords.step? (trim raw) = some found ∧
    step.keyword = found.keyword ∧ found.resolve last = some step.type ∧
    step.text = if step.hasArgument then dropFinal ':' found.text else found.text
  table : ∀ table, step.table = some table → table.Attested src
  docstring : ∀ docstring, step.docstring = some docstring → docstring.Attested src

/-- Each step is attested behind the one before it. -/
def StepsAttested : Option StepType → List Step → Prop
  | _, [] => True
  | last, step :: rest => step.Attested src keywords last ∧ StepsAttested (some step.type) rest

/-- The line belongs to a description: it is a line of the source, not blank, no
    comment, no line of tags and no header of the given categories. -/
structure Described (categories : List Category) (line : Text) : Prop where
  source : ∃ n raw, src n raw ∧ line = trim raw
  visible : line ≠ [] ∧ leads '#' line = false ∧ leads '@' line = false
  plain : ∀ category ∈ categories, keywords.header? category line = none

def GroupDescribed (description : List Text) : Prop :=
  ∀ line ∈ description, Described src keywords (.background :: taggableCategories) line

/-- The description of a statement is attested, and no line of it is a step. -/
def StatementDescribed (description : List Text) : Prop :=
  ∀ line ∈ description,
    Described src keywords taggableCategories line ∧ keywords.step? line = none

structure Examples.Attested (node : Examples) : Prop where
  header : node.header.Attested src keywords .examples
  tags : ∀ tag ∈ node.tags, tag.Attested src
  table : ∀ table, node.table = some table → table.Attested src

/-- Everything in a background but its header is attested. -/
structure Background.BodyAttested (node : Background) : Prop where
  description : StatementDescribed src keywords node.description
  steps : StepsAttested src keywords none node.steps

/-- Everything in a scenario but its header is attested. -/
structure Scenario.BodyAttested (node : Scenario) : Prop where
  tags : ∀ tag ∈ node.tags, tag.Attested src
  description : StatementDescribed src keywords node.description
  steps : StepsAttested src keywords none node.steps
  blocks : ∀ blocks, node.blocks = some blocks → ∀ block ∈ blocks, block.Attested src keywords

/-- Everything in a group but its own header is attested. -/
structure Group.BodyAttested (group : Group) : Prop where
  tags : ∀ tag ∈ group.tags, tag.Attested src
  description : GroupDescribed src keywords group.description
  background : ∀ node, group.background = some node →
    node.header.Attested src keywords .background ∧ node.BodyAttested src keywords
  scenarios : ∀ node ∈ group.scenarios,
    node.header.Attested src keywords node.category ∧ node.BodyAttested src keywords

structure Feature.Attested (feature : Feature) : Prop where
  header : feature.top.header.Attested src keywords .feature
  top : feature.top.BodyAttested src keywords
  rules : ∀ rule ∈ feature.rules,
    rule.header.Attested src keywords .rule ∧ rule.BodyAttested src keywords

def Statement.BodyAttested : Statement → Prop
  | .background node => node.BodyAttested src keywords
  | .scenario node => node.BodyAttested src keywords

def Statement.HeaderAttested : Statement → Prop
  | .background node => node.header.Attested src keywords .background
  | .scenario node => node.header.Attested src keywords node.category

/-- The table or docstring that is being read is attested. -/
def Mode.Attested : Mode → Prop
  | .docstring block => block.Attested src
  | .examples (some table) | .stepTable table => table.Attested src
  | _ => True

end Nodes

section Steps

variable {src : Source} {keywords : Keywords}

/-! ## 2. Steps and their arguments -/

/-- What the next step continues behind a step and those that follow it. -/
theorem lastType_cons (step : Step) (rest : List Step) (last : Option StepType) :
    ((step :: rest).getLast?.map (·.type)).or last =
      (rest.getLast?.map (·.type)).or (some step.type) := by
  rw [List.getLast?_cons]
  cases rest.getLast? <;> rfl

theorem StepsAttested.concat {last : Option StepType} {steps : List Step} {step : Step}
    (h : StepsAttested src keywords last steps)
    (hstep : step.Attested src keywords ((steps.getLast?.map (·.type)).or last)) :
    StepsAttested src keywords last (steps ++ [step]) := by
  induction steps generalizing last with
  | nil => exact ⟨by simpa using hstep, trivial⟩
  | cons first rest ih =>
    rw [lastType_cons] at hstep
    exact ⟨h.1, ih h.2 hstep⟩

/-- A change of the last step that keeps its attestation. -/
theorem StepsAttested.mapLast {f : Step → Step}
    (hf : ∀ last step, step.Attested src keywords last → (f step).Attested src keywords last)
    {last : Option StepType} {steps : List Step} (h : StepsAttested src keywords last steps) :
    StepsAttested src keywords last (mapLast f steps) := by
  induction steps using mapLast.induct generalizing last with
  | case1 => exact h
  | case2 step => exact ⟨hf last step h.1, trivial⟩
  | case3 step next rest ih => exact ⟨h.1, ih h.2⟩

theorem StepsAttested.exists_of_mem {last : Option StepType} {steps : List Step}
    (h : StepsAttested src keywords last steps) {step : Step} (hstep : step ∈ steps) :
    ∃ before, step.Attested src keywords before := by
  induction steps generalizing last with
  | nil => simp at hstep
  | cons first rest ih =>
    rcases List.mem_cons.mp hstep with rfl | hstep
    · exact ⟨last, h.1⟩
    · exact ih h.2 hstep

theorem Step.Attested.announced {last : Option StepType} {step : Step}
    (h : step.Attested src keywords last) :
    ∃ raw found, src step.line raw ∧ keywords.step? (trim raw) = some found ∧
      step.keyword = found.keyword ∧ found.resolve last = some step.type ∧
      step.announced.text = dropFinal ':' found.text := by
  obtain ⟨raw, found, hraw, hfound, hkeyword, htype, htext⟩ := h.line
  refine ⟨raw, found, hraw, hfound, hkeyword, htype, ?_⟩
  unfold Step.announced
  split <;> rename_i harg
  · rw [htext, if_pos harg]
  · rw [htext, if_neg harg]

@[simp] theorem Step.announced_line (step : Step) : step.announced.line = step.line := by
  unfold Step.announced; split <;> rfl

@[simp] theorem Step.announced_keyword (step : Step) :
    step.announced.keyword = step.keyword := by
  unfold Step.announced; split <;> rfl

@[simp] theorem Step.announced_type (step : Step) : step.announced.type = step.type := by
  unfold Step.announced; split <;> rfl

@[simp] theorem Step.announced_table (step : Step) : step.announced.table = step.table := by
  unfold Step.announced; split <;> rfl

@[simp] theorem Step.announced_docstring (step : Step) :
    step.announced.docstring = step.docstring := by
  unfold Step.announced; split <;> rfl

theorem Step.Attested.withTable {last : Option StepType} {step : Step}
    (h : step.Attested src keywords last) {table : Table} (htable : table.Attested src) :
    (step.withTable table).Attested src keywords last := by
  obtain ⟨raw, found, hraw, hfound, hkeyword, htype, htext⟩ := h.announced
  constructor
  · exact ⟨raw, found, by simpa [Step.withTable] using hraw, hfound,
      by simpa [Step.withTable] using hkeyword, by simpa [Step.withTable] using htype,
      by simpa [Step.withTable, Step.hasArgument] using htext⟩
  · simpa [Step.withTable] using htable
  · simpa [Step.withTable] using h.docstring

theorem Step.Attested.withDocstring {last : Option StepType} {step : Step}
    (h : step.Attested src keywords last) {docstring : Docstring}
    (hdocstring : docstring.Attested src) :
    (step.withDocstring docstring).Attested src keywords last := by
  obtain ⟨raw, found, hraw, hfound, hkeyword, htype, htext⟩ := h.announced
  constructor
  · exact ⟨raw, found, by simpa [Step.withDocstring] using hraw, hfound,
      by simpa [Step.withDocstring] using hkeyword, by simpa [Step.withDocstring] using htype,
      by simpa [Step.withDocstring, Step.hasArgument] using htext⟩
  · simpa [Step.withDocstring] using h.table
  · simpa [Step.withDocstring] using hdocstring

theorem Table.Attested.start {n : Nat} {raw : Text} (hraw : src n raw) :
    (Table.start (Cells.read (trim raw)) n).Attested src :=
  ⟨⟨raw, hraw, rfl⟩, by simp [Table.start]⟩

theorem Table.Attested.push {table next : Table} {n : Nat} {raw : Text}
    (h : table.Attested src) (hraw : src n raw)
    (hpush : table.push? ⟨Cells.read (trim raw), n⟩ = some next) : next.Attested src := by
  unfold Table.push? at hpush
  split at hpush
  · rename_i hwidth
    rw [Option.some.injEq] at hpush
    subst hpush
    refine ⟨h.headings, ?_⟩
    intro row hrow
    rcases List.mem_append.mp hrow with hrow | hrow
    · exact h.rows row hrow
    · rw [List.mem_singleton.mp hrow]
      exact ⟨hwidth, raw, hraw, rfl⟩
  · simp at hpush

theorem Block.Attested.start {n : Nat} {raw : Text} {fence : Fence} {contentType : Text}
    (hraw : src n raw) (hfits : Fence.open? (trimStart raw) = some (fence, contentType)) :
    (Block.start n raw fence contentType).Attested src :=
  ⟨⟨raw, contentType, hraw, hfits, rfl⟩, by simp [Block.start]⟩

theorem Block.push_eq_ok {block next : Block} {raw : Text} (h : block.push raw = .ok next) :
    (raw.take block.margin).all isBlank = true ∧
      next = { block with lines := block.lines ++ [trimEnd (raw.drop block.margin)] } := by
  simp only [Block.push] at h
  split at h
  · rename_i hblank
    rw [Except.ok.injEq] at h
    exact ⟨hblank, h.symm⟩
  · simp at h

theorem Block.Attested.push {block next : Block} {n : Nat} {raw : Text}
    (h : block.Attested src) (hraw : src n raw) (hpush : block.push raw = .ok next) :
    next.Attested src := by
  obtain ⟨-, rfl⟩ := Block.push_eq_ok hpush
  refine ⟨h.fence, ?_⟩
  intro line hline
  rcases List.mem_append.mp hline with hline | hline
  · exact h.lines line hline
  · exact ⟨n, raw, hraw, List.mem_singleton.mp hline⟩

/-! ## 3. Statements and groups -/

theorem Statement.BodyAttested.addStep {statement : Statement} {step : Step}
    (h : statement.BodyAttested src keywords)
    (hstep : step.Attested src keywords statement.lastType) :
    (statement.addStep step).BodyAttested src keywords := by
  have hlast : step.Attested src keywords (statement.steps.getLast?.map (·.type)) := hstep
  cases statement with
  | background node =>
    exact ⟨h.description, h.steps.concat (by simpa [Statement.steps] using hlast)⟩
  | scenario node =>
    exact ⟨h.tags, h.description, h.steps.concat (by simpa [Statement.steps] using hlast),
      h.blocks⟩

theorem Statement.BodyAttested.mapLastStep {statement : Statement} {f : Step → Step}
    (h : statement.BodyAttested src keywords)
    (hf : ∀ last step, step.Attested src keywords last → (f step).Attested src keywords last) :
    (statement.mapLastStep f).BodyAttested src keywords := by
  cases statement with
  | background node => exact ⟨h.description, h.steps.mapLast hf⟩
  | scenario node => exact ⟨h.tags, h.description, h.steps.mapLast hf, h.blocks⟩

theorem Statement.BodyAttested.describe {statement : Statement} {line : Text}
    (h : statement.BodyAttested src keywords)
    (hline : Described src keywords taggableCategories line ∧ keywords.step? line = none) :
    (statement.describe line).BodyAttested src keywords := by
  have hdescription : ∀ {lines : List Text}, StatementDescribed src keywords lines →
      StatementDescribed src keywords (lines ++ [line]) := by
    intro lines hlines other hother
    rcases List.mem_append.mp hother with hother | hother
    · exact hlines other hother
    · exact List.mem_singleton.mp hother ▸ hline
  cases statement with
  | background node => exact ⟨hdescription h.description, h.steps⟩
  | scenario node => exact ⟨h.tags, hdescription h.description, h.steps, h.blocks⟩

theorem Statement.BodyAttested.mapBlocks {statement : Statement}
    {f : List Examples → List Examples} (h : statement.BodyAttested src keywords)
    (hf : ∀ blocks : List Examples, (∀ block ∈ blocks, block.Attested src keywords) →
      ∀ block ∈ f blocks, block.Attested src keywords) :
    (statement.mapBlocks f).BodyAttested src keywords := by
  cases statement with
  | background node => exact h
  | scenario node =>
    refine ⟨h.tags, h.description, h.steps, ?_⟩
    intro blocks hblocks
    obtain ⟨old, hold, rfl⟩ := Option.map_eq_some_iff.mp hblocks
    exact hf old (h.blocks old hold)

@[simp] theorem Statement.headerAttested_addStep {statement : Statement} {step : Step} :
    (statement.addStep step).HeaderAttested src keywords ↔
      statement.HeaderAttested src keywords := by
  cases statement <;> rfl

@[simp] theorem Statement.headerAttested_mapLastStep {statement : Statement}
    {f : Step → Step} :
    (statement.mapLastStep f).HeaderAttested src keywords ↔
      statement.HeaderAttested src keywords := by
  cases statement <;> rfl

@[simp] theorem Statement.headerAttested_describe {statement : Statement} {line : Text} :
    (statement.describe line).HeaderAttested src keywords ↔
      statement.HeaderAttested src keywords := by
  cases statement <;> rfl

@[simp] theorem Statement.headerAttested_mapBlocks {statement : Statement}
    {f : List Examples → List Examples} :
    (statement.mapBlocks f).HeaderAttested src keywords ↔
      statement.HeaderAttested src keywords := by
  cases statement with
  | background node => rfl
  | scenario node => obtain ⟨header, tags, description, steps, _ | blocks⟩ := node <;> rfl

theorem Group.BodyAttested.close {group : Group} {statement : Statement}
    (h : group.BodyAttested src keywords) (hbody : statement.BodyAttested src keywords)
    (hheader : statement.HeaderAttested src keywords) :
    (group.close statement).BodyAttested src keywords := by
  cases statement with
  | background node =>
    refine { h with background := ?_ }
    intro other hother
    rw [Group.close, Option.some.injEq] at hother
    exact hother ▸ ⟨hheader, hbody⟩
  | scenario node =>
    refine { h with scenarios := ?_ }
    intro other hother
    rcases List.mem_append.mp hother with hother | hother
    · exact h.scenarios other hother
    · exact List.mem_singleton.mp hother ▸ ⟨hheader, hbody⟩

theorem Group.BodyAttested.describe {group : Group} {line : Text}
    (h : group.BodyAttested src keywords)
    (hline : Described src keywords (.background :: taggableCategories) line) :
    (group.describe line).BodyAttested src keywords := by
  refine { h with description := ?_ }
  intro other hother
  rcases List.mem_append.mp hother with hother | hother
  · exact h.description other hother
  · exact List.mem_singleton.mp hother ▸ hline

theorem Group.BodyAttested.start {header : Header} {tags : List Tag}
    (htags : ∀ tag ∈ tags, tag.Attested src) :
    (Group.start header tags).BodyAttested src keywords :=
  ⟨htags, by simp [GroupDescribed, Group.start], by simp [Group.start], by simp [Group.start]⟩

end Steps

end Gherkin
