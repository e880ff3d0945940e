/-
  Gherkin/Proofs/Tree/WellFormed.lean
  ===================================
  **What readers of a tree may rely on.**

  A well-formed tree can be written, counted and selected from without looking at
  its texts again: tables are rectangular and have a heading, nothing has blanks
  around it, no line of a description could be taken for something else, the name
  of a tag is one word, and no line of a docstring ends in blanks.

  A node that is attested is well formed.  A docstring needs one thing more: the
  lines of the source hold no line feed, so the lines of its value are the lines
  that were read.
-/
import Gherkin.Proofs.Keyword.Clarity
import Gherkin.Proofs.Table.Rows
import Gherkin.Proofs.Tag.Words
import Gherkin.Proofs.Tree.Attestation

namespace Gherkin

open Text

/-! ## 1. Well-formed nodes -/

def Tag.WellFormed (tag : Tag) : Prop := ∀ c ∈ tag.name, isBlank c = false

def Header.WellFormed (header : Header) : Prop := trim header.title = header.title

/-- No line of the description is blank, a comment or a line of tags. -/
def DescriptionWellFormed (description : List Text) : Prop :=
  ∀ line ∈ description,
    trim line = line ∧ line ≠ [] ∧ leads '#' line = false ∧ leads '@' line = false

/-- The table is a rectangle with at least one column. -/
structure Table.WellFormed (table : Table) : Prop where
  headings : table.headings ≠ []
  width : ∀ row ∈ table.rows, row.cells.length = table.headings.length
  cells : ∀ cells ∈ table.grid, ∀ cell ∈ cells, trim cell = cell

def Docstring.WellFormed (docstring : Docstring) : Prop :=
  ∀ line ∈ lines docstring.value, trimEnd line = line

/-- The text of a step may keep the blanks in front of the colon that its argument
    took over, but a step without an argument has none at its ends. -/
structure Step.WellFormed (step : Step) : Prop where
  text : step.hasArgument = false → trim step.text = step.text
  table : ∀ table, step.table = some table → table.WellFormed
  docstring : ∀ docstring, step.docstring = some docstring → docstring.WellFormed

structure Examples.WellFormed (node : Examples) : Prop where
  header : node.header.WellFormed
  tags : ∀ tag ∈ node.tags, tag.WellFormed
  table : ∀ table, node.table = some table → table.WellFormed

structure Background.WellFormed (node : Background) : Prop where
  header : node.header.WellFormed
  description : DescriptionWellFormed node.description
  steps : ∀ step ∈ node.steps, step.WellFormed

structure Scenario.WellFormed (node : Scenario) : Prop where
  header : node.header.WellFormed
  tags : ∀ tag ∈ node.tags, tag.WellFormed
  description : DescriptionWellFormed node.description
  steps : ∀ step ∈ node.steps, step.WellFormed
  blocks : ∀ blocks, node.blocks = some blocks → ∀ block ∈ blocks, block.WellFormed

structure Group.WellFormed (group : Group) : Prop where
  header : group.header.WellFormed
  tags : ∀ tag ∈ group.tags, tag.WellFormed
  description : DescriptionWellFormed group.description
  background : ∀ node, group.background = some node → node.WellFormed
  scenarios : ∀ node ∈ group.scenarios, node.WellFormed

structure Feature.WellFormed (feature : Feature) : Prop where
  top : feature.top.WellFormed
  rules : ∀ rule ∈ feature.rules, rule.WellFormed

section Attested

variable {src : Source} {keywords : Keywords}

/-! ## 2. Texts -/

theorem Tag.Attested.fromWord {tag : Tag} (h : tag.Attested src) : tag.FromWord := by
  obtain ⟨raw, name, -, hword, htag⟩ := h
  refine ⟨name, htag, ?_⟩
  intro c hc
  exact ((mem_words hword).2 c (List.mem_cons_of_mem _ hc)).2

theorem Tag.Attested.wellFormed {tag : Tag} (h : tag.Attested src) : tag.WellFormed :=
  h.fromWord.name_solid

theorem Header.Attested.wellFormed {category : Category} {header : Header}
    (h : header.Attested src keywords category) : header.WellFormed := by
  obtain ⟨raw, -, hfits⟩ := h
  obtain ⟨-, rest, -, htitle⟩ := Keywords.header?_eq_some hfits
  rw [Header.WellFormed, ← htitle, trim_trim]

theorem Described.wellFormed {categories : List Category} {line : Text}
    (h : Described src keywords categories line) :
    trim line = line ∧ line ≠ [] ∧ leads '#' line = false ∧ leads '@' line = false := by
  obtain ⟨n, raw, -, hline⟩ := h.source
  have htrimmed : trim line = line := by rw [hline, trim_trim]
  exact ⟨htrimmed, h.visible⟩

theorem GroupDescribed.wellFormed {description : List Text}
    (h : GroupDescribed src keywords description) : DescriptionWellFormed description := by
  intro line hline
  exact (h line hline).wellFormed

theorem StatementDescribed.wellFormed {description : List Text}
    (h : StatementDescribed src keywords description) : DescriptionWellFormed description := by
  intro line hline
  exact (h line hline).1.wellFormed

/-! ## 3. Arguments -/

theorem Table.Attested.wellFormed {table : Table} (h : table.Attested src) :
    table.WellFormed := by
  obtain ⟨raw, -, hheadings⟩ := h.headings
  constructor
  · rw [hheadings]
    exact Cells.read_ne_nil _
  · intro row hrow
    exact (h.rows row hrow).1
  · intro cells hcells cell hcell
    rcases List.mem_cons.mp hcells with rfl | hcells
    · rw [hheadings] at hcell
      exact trim_eq_self (Cells.trimmed_of_mem_read hcell)
    · obtain ⟨row, hrow, rfl⟩ := List.mem_map.mp hcells
      obtain ⟨-, other, -, hread⟩ := h.rows row hrow
      rw [hread] at hcell
      exact trim_eq_self (Cells.trimmed_of_mem_read hcell)

/-- No line of a docstring that was read ends in a blank. -/
theorem Docstring.Attested.solidEnd_of_mem_lines {docstring : Docstring}
    (hsrc : ∀ n raw, src n raw → SingleLine raw) (h : docstring.Attested src) :
    ∀ line ∈ lines docstring.value, SolidEnd line := by
  obtain ⟨block, hblock, rfl⟩ := h
  intro line hline
  have hsolid : ∀ line ∈ block.lines, SolidEnd line ∧ SingleLine line := by
    intro line hmem
    obtain ⟨n, raw, hraw, rfl⟩ := hblock.lines line hmem
    refine ⟨solidEnd_trimEnd _, (hsrc _ _ hraw).of_subset fun c hc => ?_⟩
    exact List.mem_of_mem_drop (mem_of_mem_trimEnd hc)
  by_cases hempty : block.lines = []
  · -- A docstring without lines has the value of one with an empty line.
    have hnil : line ∈ lines (join '\n' block.lines) := hline
    rw [hempty] at hnil
    rw [List.mem_singleton.mp hnil]
    exact solidEnd_nil
  · have hlines : lines (join '\n' block.lines) = block.lines :=
      lines_join (fun line hmem => (hsolid line hmem).2) hempty
    exact (hsolid line (hlines ▸ hline)).1

theorem Docstring.Attested.wellFormed {docstring : Docstring}
    (hsrc : ∀ n raw, src n raw → SingleLine raw) (h : docstring.Attested src) :
    docstring.WellFormed := by
  intro line hline
  exact trimEnd_eq_self (h.solidEnd_of_mem_lines hsrc line hline)

theorem Step.Attested.wellFormed {last : Option StepType} {step : Step}
    (hsrc : ∀ n raw, src n raw → SingleLine raw) (h : step.Attested src keywords last) :
    step.WellFormed := by
  constructor
  · intro hplain
    obtain ⟨raw, found, -, hfound, -, -, htext⟩ := h.line
    obtain ⟨-, rest, -, hrest⟩ := Keywords.exists_of_step? hfound
    rw [htext, hplain, if_neg Bool.false_ne_true, hrest, trim_trim]
  · intro table htable
    exact (h.table table htable).wellFormed
  · intro docstring hdocstring
    exact (h.docstring docstring hdocstring).wellFormed hsrc

theorem StepsAttested.wellFormed {last : Option StepType} {steps : List Step}
    (hsrc : ∀ n raw, src n raw → SingleLine raw) (h : StepsAttested src keywords last steps) :
    ∀ step ∈ steps, step.WellFormed := by
  intro step hstep
  obtain ⟨before, hattested⟩ := h.exists_of_mem hstep
  exact hattested.wellFormed hsrc

/-! ## 4. Statements and groups -/

theorem Examples.Attested.wellFormed {node : Examples} (h : node.Attested src keywords) :
    node.WellFormed where
  header := h.header.wellFormed
  tags tag htag := (h.tags tag htag).wellFormed
  table table htable := (h.table table htable).wellFormed

theorem Background.BodyAttested.wellFormed {node : Background}
    (hsrc : ∀ n raw, src n raw → SingleLine raw) (hheader : node.header.WellFormed)
    (h : node.BodyAttested src keywords) : node.WellFormed where
  header := hheader
  description := h.description.wellFormed
  steps := h.steps.wellFormed hsrc

theorem Scenario.BodyAttested.wellFormed {node : Scenario}
    (hsrc : ∀ n raw, src n raw → SingleLine raw) (hheader : node.header.WellFormed)
    (h : node.BodyAttested src keywords) : node.WellFormed where
  header := hheader
  tags tag htag := (h.tags tag htag).wellFormed
  description := h.description.wellFormed
  steps := h.steps.wellFormed hsrc
  blocks blocks hblocks block hblock := (h.blocks blocks hblocks block hblock).wellFormed

/-- The header of a group is asked for separately, since the group of a fragment has
    none in the text. -/
theorem Group.BodyAttested.wellFormed {group : Group}
    (hsrc : ∀ n raw, src n raw → SingleLine raw) (hheader : group.header.WellFormed)
    (h : group.BodyAttested src keywords) : group.WellFormed := by
  constructor
  · exact hheader
  · intro tag htag
    exact (h.tags tag htag).wellFormed
  · exact h.description.wellFormed
  · intro node hnode
    obtain ⟨hown, hbody⟩ := h.background node hnode
    exact hbody.wellFormed hsrc hown.wellFormed
  · intro node hnode
    obtain ⟨hown, hbody⟩ := h.scenarios node hnode
    exact hbody.wellFormed hsrc hown.wellFormed

theorem Feature.Attested.wellFormed {feature : Feature}
    (hsrc : ∀ n raw, src n raw → SingleLine raw) (h : feature.Attested src keywords) :
    feature.WellFormed := by
  constructor
  · exact h.top.wellFormed hsrc h.header.wellFormed
  · intro rule hrule
    obtain ⟨hown, hbody⟩ := h.rules rule hrule
    exact hbody.wellFormed hsrc hown.wellFormed

end Attested

/-- A fragment has no header of its own, and an empty title is trimmed. -/
theorem Header.absent_wellFormed : Header.absent.WellFormed := rfl

theorem Group.start_wellFormed : (Group.start .absent []).WellFormed :=
  ⟨Header.absent_wellFormed, by simp [Group.start], by simp [DescriptionWellFormed, Group.start],
    by simp [Group.start], by simp [Group.start]⟩

end Gherkin
