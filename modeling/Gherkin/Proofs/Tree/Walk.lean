/-
  Gherkin/Proofs/Tree/Walk.lean
  =============================
  **Trees in the order of their lines.**

  A walk visits the nodes of a tree from the top and notes for each what it is
  and on which line it starts.  Below a statement there are two things to
  visit, its steps and its Examples blocks, and a source may interleave them.
  So there are two walks (`View`), each of which skips one of the two; what
  they share are the headers of groups and statements.
-/
import Gherkin.Proofs.Session.Slots
import Gherkin.Proofs.Tree.Nodes

namespace Gherkin

/-! ## 1. Marks -/

/-- The kinds of node that a line can start. -/
inductive NodeKind where
  | feature
  | rule
  | background
  | scenario
  | outline
  | examples
  | step
deriving DecidableEq, Repr

/-- A node with the number of the line that starts it. -/
structure Mark where
  kind : NodeKind
  line : Nat
deriving DecidableEq, Repr

/-- What a walk visits below a statement. -/
inductive View where
  | steps
  | examples
deriving DecidableEq

/-- Whether nodes of a kind are visited. -/
def View.shows : View → NodeKind → Bool
  | .steps, .examples => false
  | .examples, .step => false
  | _, _ => true

/-! ## 2. Walks -/

def Scenario.nodeKind (node : Scenario) : NodeKind :=
  if node.isOutline then .outline else .scenario

namespace Statement

def mark : Statement → Mark
  | .background node => ⟨.background, node.header.line⟩
  | .scenario node => ⟨node.nodeKind, node.header.line⟩

/-- What a walk visits below the header. -/
def inner (statement : Statement) : View → List Mark
  | .steps => statement.steps.map fun step => ⟨.step, step.line⟩
  | .examples => (statement.blocks?.getD []).map fun block => ⟨.examples, block.header.line⟩

def walk (statement : Statement) (view : View) : List Mark := statement.mark :: statement.inner view

end Statement

def Group.statements (group : Group) : List Statement :=
  group.background.toList.map .background ++ group.scenarios.map .scenario

/-- The walk through a group, whose header has the given kind. -/
def Group.walk (kind : NodeKind) (group : Group) (view : View) : List Mark :=
  ⟨kind, group.header.line⟩ :: group.statements.flatMap (·.walk view)

def Feature.walk (feature : Feature) (view : View) : List Mark :=
  feature.top.walk .feature view ++ feature.rules.flatMap (·.walk .rule view)

def Feature.linesOf (feature : Feature) : NodeKind → List Nat
  | .feature => [feature.top.header.line]
  | .rule => feature.rules.map (·.header.line)
  | .background => (feature.groups.flatMap (·.background.toList)).map (·.header.line)
  | .scenario =>
    ((feature.groups.flatMap (·.scenarios)).filter (!·.isOutline)).map (·.header.line)
  | .outline => ((feature.groups.flatMap (·.scenarios)).filter (·.isOutline)).map (·.header.line)
  | .examples => (feature.groups.flatMap (·.blocks)).map (·.header.line)
  | .step => feature.steps.map (·.line)

/-! ## 3. What a walk shows of each kind -/

/-- The line of a mark of the given kind. -/
def Mark.lineOf (kind : NodeKind) (mark : Mark) : Option Nat :=
  if mark.kind = kind then some mark.line else none

theorem map_line_filter (kind : NodeKind) (marks : List Mark) :
    (marks.filter (·.kind = kind)).map (·.line) = marks.filterMap (Mark.lineOf kind) := by
  induction marks with
  | nil => rfl
  | cons mark marks ih =>
    by_cases h : mark.kind = kind
    · simp [Mark.lineOf, h, ih]
    · simp [Mark.lineOf, h, ih]

/-- The lines of a kind below the header of a group. -/
def Group.linesOf (group : Group) : NodeKind → List Nat
  | .feature | .rule => []
  | .background => group.background.toList.map (·.header.line)
  | .scenario => (group.scenarios.filter (!·.isOutline)).map (·.header.line)
  | .outline => (group.scenarios.filter (·.isOutline)).map (·.header.line)
  | .examples => group.blocks.map (·.header.line)
  | .step => group.steps.map (·.line)

theorem Statement.filterMap_inner (statement : Statement) {view : View} {kind : NodeKind}
    (hshows : view.shows kind = true) :
    (statement.inner view).filterMap (Mark.lineOf kind) =
      match kind with
      | .step => statement.steps.map (·.line)
      | .examples => (statement.blocks?.getD []).map (·.header.line)
      | _ => [] := by
  cases view with
  | steps =>
    cases kind with
    | examples => exact Bool.noConfusion hshows
    | _ => simp [Statement.inner, List.filterMap_map, Function.comp_def, Mark.lineOf]
  | examples =>
    cases kind with
    | step => exact Bool.noConfusion hshows
    | _ => simp [Statement.inner, List.filterMap_map, Function.comp_def, Mark.lineOf]

theorem Scenario.lineOf_mark (node : Scenario) (kind : NodeKind) :
    (Statement.scenario node).mark.lineOf kind =
      match kind with
      | .scenario => if node.isOutline then none else some node.header.line
      | .outline => if node.isOutline then some node.header.line else none
      | _ => none := by
  unfold Statement.mark Scenario.nodeKind Mark.lineOf
  cases hnode : node.isOutline <;> cases kind <;> simp [hnode]

theorem filterMap_scenarios (scenarios : List Scenario) {view : View} {kind : NodeKind}
    (hshows : view.shows kind = true) :
    (scenarios.flatMap fun node => (Statement.scenario node).walk view).filterMap
        (Mark.lineOf kind) =
      match kind with
      | .scenario => (scenarios.filter (!·.isOutline)).map (·.header.line)
      | .outline => (scenarios.filter (·.isOutline)).map (·.header.line)
      | .examples => (scenarios.flatMap fun node => node.blocks.getD []).map (·.header.line)
      | .step => (scenarios.flatMap (·.steps)).map (·.line)
      | _ => [] := by
  induction scenarios with
  | nil => cases kind <;> rfl
  | cons node rest ih =>
    rw [List.flatMap_cons, List.filterMap_append, ih, Statement.walk, List.filterMap_cons,
      Scenario.lineOf_mark, Statement.filterMap_inner _ hshows]
    cases kind with
    | scenario => cases hnode : node.isOutline <;> simp [hnode]
    | outline => cases hnode : node.isOutline <;> simp [hnode]
    | examples => simp [Statement.blocks?]
    | step => simp [Statement.steps]
    | _ => simp

theorem Group.filterMap_statements (group : Group) {view : View} {kind : NodeKind}
    (hshows : view.shows kind = true) :
    (group.statements.flatMap (·.walk view)).filterMap (Mark.lineOf kind) =
      group.linesOf kind := by
  rw [Group.statements, List.flatMap_append, List.filterMap_append, List.flatMap_map,
    List.flatMap_map, filterMap_scenarios _ hshows]
  cases hbackground : group.background with
  | none => cases kind <;> simp [Group.linesOf, hbackground, Group.blocks, Group.steps]
  | some node =>
    have hinner := Statement.filterMap_inner (.background node) hshows
    cases kind <;>
      simp_all [Group.linesOf, Group.blocks, Group.steps, Statement.walk, Statement.mark,
        Statement.steps, Statement.blocks?, Mark.lineOf]

/-- A walk shows each node of the kinds that it visits once, in the order of the
    tree. -/
theorem Feature.lines_walk (feature : Feature) {view : View} {kind : NodeKind}
    (hshows : view.shows kind = true) :
    ((feature.walk view).filter (·.kind = kind)).map (·.line) = feature.linesOf kind := by
  rw [map_line_filter]
  have hgroup : ∀ (own : NodeKind) (group : Group),
      (group.walk own view).filterMap (Mark.lineOf kind) =
        (if own = kind then [group.header.line] else []) ++ group.linesOf kind := by
    intro own group
    rw [Group.walk, List.filterMap_cons, Group.filterMap_statements group hshows]
    by_cases hown : own = kind
    · simp [Mark.lineOf, hown]
    · simp [Mark.lineOf, hown]
  have hrules : (feature.rules.flatMap (·.walk .rule view)).filterMap (Mark.lineOf kind) =
      feature.rules.flatMap fun rule =>
        (if .rule = kind then [rule.header.line] else []) ++ rule.linesOf kind := by
    rw [List.filterMap_flatMap]
    exact congrArg (feature.rules.flatMap ·) (funext fun rule => hgroup .rule rule)
  rw [Feature.walk, List.filterMap_append, hgroup, hrules]
  cases kind with
  | rule => simp [Feature.linesOf, Group.linesOf, List.map_eq_flatMap]
  | _ =>
    simp [Feature.linesOf, Group.linesOf, Feature.groups, Feature.steps, List.map_flatMap,
      List.filter_flatMap]

/-! ## 4. Changes that a walk does not see -/

namespace Statement

theorem mark_mapSteps (statement : Statement) (f : List Step → List Step) :
    (statement.mapSteps f).mark = statement.mark := by
  cases statement <;> rfl

theorem mark_mapBlocks (statement : Statement) (f : List Examples → List Examples) :
    (statement.mapBlocks f).mark = statement.mark := by
  cases statement with
  | background node => rfl
  | scenario node =>
    obtain ⟨_, _, _, _, _ | blocks⟩ := node <;> rfl

/-- Where a step starts does not depend on its arguments. -/
theorem walk_mapLastStep {f : Step → Step} (h : ∀ step, (f step).line = step.line)
    (statement : Statement) (view : View) :
    (statement.mapLastStep f).walk view = statement.walk view := by
  unfold walk
  have hmark : (statement.mapLastStep f).mark = statement.mark := mark_mapSteps _ _
  rw [hmark]
  cases view with
  | steps =>
    have hlines : (mapLast f statement.steps).map (fun step => Mark.mk .step step.line) =
        statement.steps.map fun step => Mark.mk .step step.line :=
      map_mapLast (fun step => by rw [h]) _
    simp only [inner, steps_mapLastStep, hlines]
  | examples => simp [inner]

/-- Where an Examples block starts does not depend on its table. -/
theorem walk_mapLastBlock {f : Examples → Examples} (h : ∀ block, (f block).header = block.header)
    (statement : Statement) (view : View) :
    (statement.mapBlocks (mapLast f)).walk view = statement.walk view := by
  unfold walk
  rw [mark_mapBlocks]
  cases view with
  | steps => simp [inner]
  | examples =>
    have hlines : ∀ blocks : List Examples,
        (mapLast f blocks).map (fun block => Mark.mk .examples block.header.line) =
          blocks.map fun block => Mark.mk .examples block.header.line :=
      map_mapLast fun block => by rw [h]
    cases hblocks : statement.blocks? with
    | none => simp [inner, hblocks]
    | some blocks => simp [inner, hblocks, hlines]

theorem walk_describe (line : Text) (statement : Statement) (view : View) :
    (statement.describe line).walk view = statement.walk view := by
  cases statement <;> cases view <;> rfl

end Statement

@[simp] theorem Step.line_withTable (step : Step) (table : Table) :
    (step.withTable table).line = step.line := by
  unfold Step.withTable Step.announced
  split <;> rfl

@[simp] theorem Step.line_withDocstring (step : Step) (docstring : Docstring) :
    (step.withDocstring docstring).line = step.line := by
  unfold Step.withDocstring Step.announced
  split <;> rfl

theorem Mode.walk_attach (mode : Mode) (statement : Statement) (view : View) :
    (mode.attach statement).walk view = statement.walk view := by
  cases mode with
  | examples table =>
    exact Statement.walk_mapLastBlock (f := fun block => { block with table := table })
      (fun _ => rfl) statement view
  | stepTable table => exact Statement.walk_mapLastStep (by simp) statement view
  | _ => rfl

/-! ## 5. Changes that add a mark at the end -/

theorem Statement.walk_addStep (statement : Statement) (step : Step) (view : View) :
    (statement.addStep step).walk view =
      statement.walk view ++ [Mark.mk .step step.line].filter fun mark => view.shows mark.kind := by
  unfold Statement.walk
  have hmark : (statement.addStep step).mark = statement.mark := Statement.mark_mapSteps _ _
  rw [hmark]
  cases view with
  | steps => simp [Statement.inner, View.shows]
  | examples => simp [Statement.inner, View.shows]

theorem Statement.walk_addBlock {statement : Statement} {blocks : List Examples}
    (hblocks : statement.blocks? = some blocks) (block : Examples) (view : View) :
    (statement.mapBlocks (· ++ [block])).walk view =
      statement.walk view ++
        [Mark.mk .examples block.header.line].filter fun mark => view.shows mark.kind := by
  unfold Statement.walk
  rw [Statement.mark_mapBlocks]
  cases view with
  | steps => simp [Statement.inner, View.shows]
  | examples => simp [Statement.inner, View.shows, hblocks]

/-- A scenario goes to the end of its group, and a background opens it. -/
theorem Group.walk_close (kind : NodeKind) {group : Group} {statement : Statement}
    (hfresh : statement.isScenario = false → group.background = none ∧ group.scenarios = [])
    (view : View) :
    (group.close statement).walk kind view = group.walk kind view ++ statement.walk view := by
  cases statement with
  | background node =>
    obtain ⟨hbackground, hscenarios⟩ := hfresh rfl
    simp [Group.close, Group.walk, Group.statements, hbackground, hscenarios]
  | scenario node => simp [Group.close, Group.walk, Group.statements, List.flatMap_map]

/-! ## 6. Walks whose lines increase -/

/-- The lines of the headers of a group and of its statements. -/
def Group.heads (group : Group) : List Nat :=
  group.header.line :: group.statements.map (·.mark.line)

/-- The lines of the headers of groups and statements, from the top. -/
def Feature.heads (feature : Feature) : List Nat := feature.groups.flatMap (·.heads)

/-- The headers of a group and of its statements, each with what follows it in a
    walk. -/
def Group.sections (kind : NodeKind) (group : Group) (view : View) : List (Mark × List Mark) :=
  (⟨kind, group.header.line⟩, []) ::
    group.statements.map fun statement => (statement.mark, statement.inner view)

def Feature.sections (feature : Feature) (view : View) : List (Mark × List Mark) :=
  feature.top.sections .feature view ++ feature.rules.flatMap (·.sections .rule view)

theorem Group.walk_eq_sections (kind : NodeKind) (group : Group) (view : View) :
    group.walk kind view = (group.sections kind view).flatMap fun part => part.1 :: part.2 := by
  simp [Group.walk, Group.sections, List.flatMap_map, Statement.walk]

theorem Feature.walk_eq_sections (feature : Feature) (view : View) :
    feature.walk view = (feature.sections view).flatMap fun part => part.1 :: part.2 := by
  simp [Feature.walk, Feature.sections, Group.walk_eq_sections, List.flatMap_assoc]

theorem Feature.heads_eq_sections (feature : Feature) (view : View) :
    feature.heads = (feature.sections view).map (·.1.line) := by
  simp [Feature.heads, Feature.sections, Feature.groups, Group.heads, Group.sections,
    List.map_flatMap, Function.comp_def]

theorem Feature.mem_sections {feature : Feature} {group : Group} {statement : Statement}
    (hgroup : group ∈ feature.groups) (hstatement : statement ∈ group.statements) (view : View) :
    (statement.mark, statement.inner view) ∈ feature.sections view := by
  have hmem : ∀ kind, (statement.mark, statement.inner view) ∈ group.sections kind view := by
    intro kind
    exact List.mem_cons_of_mem _ (List.mem_map_of_mem hstatement)
  rcases List.mem_cons.mp hgroup with rfl | hrule
  · exact List.mem_append_left _ (hmem .feature)
  · exact List.mem_append_right _ (List.mem_flatMap_of_mem hrule (hmem .rule))

section Sections

variable {sections : List (Mark × List Mark)}

theorem pairwise_heads
    (h : (sections.flatMap fun part => part.1 :: part.2).Pairwise fun a b => a.line < b.line) :
    (sections.map (·.1.line)).Pairwise (· < ·) := by
  induction sections with
  | nil => exact .nil
  | cons part rest ih =>
    rw [List.flatMap_cons, List.pairwise_append] at h
    obtain ⟨-, hrest, hacross⟩ := h
    rw [List.map_cons, List.pairwise_cons]
    refine ⟨?_, ih hrest⟩
    intro line hline
    obtain ⟨other, hother, rfl⟩ := List.mem_map.mp hline
    exact hacross part.1 List.mem_cons_self other.1
      (List.mem_flatMap_of_mem hother List.mem_cons_self)

/-- What follows a header in a walk stands between it and the next header. -/
theorem between_heads
    (h : (sections.flatMap fun part => part.1 :: part.2).Pairwise fun a b => a.line < b.line)
    {part : Mark × List Mark} (hpart : part ∈ sections) {mark : Mark} (hmark : mark ∈ part.2) :
    part.1.line < mark.line ∧
      ∀ head ∈ sections.map (·.1.line), part.1.line < head → mark.line < head := by
  induction sections with
  | nil => simp at hpart
  | cons first rest ih =>
    have hheads := pairwise_heads h
    rw [List.flatMap_cons, List.pairwise_append] at h
    obtain ⟨hfirst, hrest, hacross⟩ := h
    rcases List.mem_cons.mp hpart with rfl | hpart
    · refine ⟨(List.pairwise_cons.mp hfirst).1 mark hmark, ?_⟩
      intro head hhead hlt
      rcases List.mem_cons.mp hhead with rfl | hhead
      · exact absurd hlt (Nat.lt_irrefl _)
      · obtain ⟨other, hother, rfl⟩ := List.mem_map.mp hhead
        exact hacross mark (List.mem_cons_of_mem _ hmark) other.1
          (List.mem_flatMap_of_mem hother List.mem_cons_self)
    · obtain ⟨hlow, hhigh⟩ := ih hrest hpart
      refine ⟨hlow, ?_⟩
      intro head hhead hlt
      rcases List.mem_cons.mp hhead with rfl | hhead
      · -- The first header precedes every other one.
        have := (List.pairwise_cons.mp hheads).1 part.1.line (List.mem_map_of_mem hpart)
        omega
      · exact hhigh head hhead hlt

theorem pairwise_part
    (h : (sections.flatMap fun part => part.1 :: part.2).Pairwise fun a b => a.line < b.line)
    {part : Mark × List Mark} (hpart : part ∈ sections) :
    (part.2.map (·.line)).Pairwise (· < ·) := by
  obtain ⟨before, after, rfl⟩ := List.append_of_mem hpart
  rw [List.flatMap_append, List.flatMap_cons] at h
  have hinner := (List.pairwise_append.mp (List.pairwise_append.mp h).2.1).1
  exact List.pairwise_map.mpr (List.pairwise_cons.mp hinner).2

end Sections

/-- The scenarios of a feature stand among its headers, in the same order. -/
theorem Feature.sublist_heads (feature : Feature) :
    (feature.scenarios.map (·.2.header.line)).Sublist feature.heads := by
  have hgroup : ∀ group : Group,
      (group.scenarios.map (·.header.line)).Sublist group.heads := by
    intro group
    have hlines : group.scenarios.map (·.header.line) =
        (group.scenarios.map Statement.scenario).map (·.mark.line) := by
      simp [Statement.mark]
    rw [hlines, Group.heads, Group.statements, List.map_append]
    exact (List.sublist_append_right _ _).cons _
  have hrules : ∀ rules : List Group,
      (rules.flatMap fun rule => rule.scenarios.map (·.header.line)).Sublist
        (rules.flatMap (·.heads)) := by
    intro rules
    induction rules with
    | nil => exact .slnil
    | cons rule rest ih => exact (hgroup rule).append ih
  have hall : feature.scenarios.map (·.2.header.line) =
      feature.top.scenarios.map (·.header.line) ++
        feature.rules.flatMap fun rule => rule.scenarios.map (·.header.line) := by
    simp [Feature.scenarios, List.map_flatMap, Function.comp_def]
  rw [hall, Feature.heads, Feature.groups, List.flatMap_cons]
  exact (hgroup feature.top).append (hrules feature.rules)

end Gherkin
