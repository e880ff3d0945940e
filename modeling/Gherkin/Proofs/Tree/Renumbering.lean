/-
  Gherkin/Proofs/Tree/Renumbering.lean
  ====================================
  **The same tree on other lines.**

  `renumber` changes the number of every line that a tree remembers and nothing
  else.  Two trees are equal but for their lines when they agree once all lines
  have been given the same number.  The changes that a reading makes to a node
  do not look at the lines, so they commute with every renumbering.
-/
import Gherkin.Proofs.Session.Slots

namespace Gherkin

open Text

/-! ## 1. Renumbered nodes -/

section Nodes

variable (r : Nat → Nat)

def Tag.renumber (tag : Tag) : Tag := { tag with line := r tag.line }

def Header.renumber (header : Header) : Header := { header with line := r header.line }

def Row.renumber (row : Row) : Row := { row with line := r row.line }

def Table.renumber (table : Table) : Table :=
  ⟨table.headings, table.rows.map (·.renumber r), r table.line⟩

def Docstring.renumber (docstring : Docstring) : Docstring :=
  { docstring with line := r docstring.line }

def Step.renumber (step : Step) : Step :=
  { step with
    table := step.table.map (·.renumber r)
    docstring := step.docstring.map (·.renumber r)
    line := r step.line }

def Examples.renumber (node : Examples) : Examples :=
  ⟨node.header.renumber r, node.tags.map (·.renumber r), node.table.map (·.renumber r)⟩

def Background.renumber (node : Background) : Background :=
  ⟨node.header.renumber r, node.description, node.steps.map (·.renumber r)⟩

def Scenario.renumber (node : Scenario) : Scenario :=
  ⟨node.header.renumber r, node.tags.map (·.renumber r), node.description,
    node.steps.map (·.renumber r), node.blocks.map (·.map (·.renumber r))⟩

def Group.renumber (group : Group) : Group :=
  ⟨group.header.renumber r, group.tags.map (·.renumber r), group.description,
    group.background.map (·.renumber r), group.scenarios.map (·.renumber r)⟩

def Feature.renumber (feature : Feature) : Feature :=
  { feature with
    top := feature.top.renumber r
    rules := feature.rules.map (·.renumber r) }

def Statement.renumber : Statement → Statement
  | .background node => .background (node.renumber r)
  | .scenario node => .scenario (node.renumber r)

end Nodes

/-- All lines get the same number. -/
def unnumbered : Nat → Nat := fun _ => 0

/-- Two features that differ in the numbers of their lines at most. -/
def Feature.EqualUpToLines (f g : Feature) : Prop :=
  f.renumber unnumbered = g.renumber unnumbered

section Changes

variable {r : Nat → Nat}

/-! ## 2. Steps and Examples blocks -/

/-- A change of the last entry seen through a map. -/
theorem map_mapLast_comm {α β : Type} {f : α → α} {g : α → β} {k : β → β}
    (h : ∀ a, g (f a) = k (g a)) (list : List α) :
    (mapLast f list).map g = mapLast k (list.map g) := by
  induction list using mapLast.induct with
  | case1 => rfl
  | case2 a => simp [mapLast, h]
  | case3 a b rest ih => simpa [mapLast] using ih

theorem Step.hasArgument_renumber (step : Step) :
    (step.renumber r).hasArgument = step.hasArgument := by
  simp [Step.renumber, Step.hasArgument]

theorem Step.renumber_announced (step : Step) :
    step.announced.renumber r = (step.renumber r).announced := by
  unfold Step.announced
  rw [Step.hasArgument_renumber]
  split <;> rfl

theorem Step.renumber_withTable (step : Step) (table : Table) :
    (step.withTable table).renumber r = (step.renumber r).withTable (table.renumber r) := by
  unfold Step.withTable
  rw [← Step.renumber_announced]
  rfl

theorem Step.renumber_withDocstring (step : Step) (docstring : Docstring) :
    (step.withDocstring docstring).renumber r =
      (step.renumber r).withDocstring (docstring.renumber r) := by
  unfold Step.withDocstring
  rw [← Step.renumber_announced]
  rfl

namespace Statement

theorem renumber_addStep (statement : Statement) (step : Step) :
    (statement.addStep step).renumber r = (statement.renumber r).addStep (step.renumber r) := by
  cases statement <;>
    simp [addStep, mapSteps, renumber, Background.renumber, Scenario.renumber]

theorem renumber_mapLastStep {f g : Step → Step}
    (h : ∀ step, (f step).renumber r = g (step.renumber r)) (statement : Statement) :
    (statement.mapLastStep f).renumber r = (statement.renumber r).mapLastStep g := by
  cases statement <;>
    simp [mapLastStep, mapSteps, renumber, Background.renumber, Scenario.renumber,
      map_mapLast_comm h]

theorem renumber_mapBlocks {f g : List Examples → List Examples}
    (h : ∀ blocks, (f blocks).map (·.renumber r) = g (blocks.map (·.renumber r)))
    (statement : Statement) :
    (statement.mapBlocks f).renumber r = (statement.renumber r).mapBlocks g := by
  cases statement with
  | background node => rfl
  | scenario node =>
    cases hblocks : node.blocks <;> simp [mapBlocks, renumber, Scenario.renumber, hblocks, h]

theorem renumber_describe (statement : Statement) (line : Text) :
    (statement.describe line).renumber r = (statement.renumber r).describe line := by
  cases statement <;> rfl

theorem blocks?_renumber (statement : Statement) :
    (statement.renumber r).blocks? = statement.blocks?.map (·.map (·.renumber r)) := by
  cases statement <;> rfl

theorem lastType_renumber (statement : Statement) :
    (statement.renumber r).lastType = statement.lastType := by
  cases statement <;>
    simp [lastType, renumber, steps, Background.renumber, Scenario.renumber, Step.renumber,
      Function.comp_def]

end Statement

/-! ## 3. Groups -/

theorem Group.renumber_close (group : Group) (statement : Statement) :
    (group.close statement).renumber r = (group.renumber r).close (statement.renumber r) := by
  cases statement <;> simp [Group.close, Group.renumber, Statement.renumber]

theorem Group.renumber_describe (group : Group) (line : Text) :
    (group.describe line).renumber r = (group.renumber r).describe line := rfl

theorem Group.renumber_start (header : Header) (tags : List Tag) :
    (Group.start header tags).renumber r =
      Group.start (header.renumber r) (tags.map (·.renumber r)) := rfl

end Changes

end Gherkin
