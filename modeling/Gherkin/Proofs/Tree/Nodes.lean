/-
  Gherkin/Proofs/Tree/Nodes.lean
  ==============================
  **The nodes of a tree.**

  Statements about all headers, all steps, all tables, all tags or all
  docstrings of a feature speak about the lists defined here, which walk the
  tree from the top: the group before the first rule, then rule by rule.
-/
import Gherkin.Keyword.Category
import Gherkin.Tree

namespace Gherkin

def Scenario.category (node : Scenario) : Category :=
  match node.blocks with
  | none => .scenario
  | some _ => .outline

/-- The header of a scenario and those of its Examples blocks. -/
def Scenario.headers (node : Scenario) : List (Category × Header) :=
  (node.category, node.header) :: (node.blocks.getD []).map fun block => (.examples, block.header)

/-- The headers below that of a group. -/
def Group.innerHeaders (group : Group) : List (Category × Header) :=
  group.background.toList.map (fun node => (.background, node.header)) ++
    group.scenarios.flatMap (·.headers)

def Feature.headers (feature : Feature) : List (Category × Header) :=
  (.feature, feature.top.header) :: feature.top.innerHeaders ++
    feature.rules.flatMap fun rule => (.rule, rule.header) :: rule.innerHeaders

def Group.steps (group : Group) : List Step :=
  group.background.toList.flatMap (·.steps) ++ group.scenarios.flatMap (·.steps)

/-- The groups of a feature: what precedes the first rule, and the rules. -/
def Feature.groups (feature : Feature) : List Group := feature.top :: feature.rules

def Feature.steps (feature : Feature) : List Step := feature.groups.flatMap (·.steps)

def Feature.docstrings (feature : Feature) : List Docstring :=
  feature.steps.filterMap (·.docstring)

def Group.blocks (group : Group) : List Examples :=
  group.scenarios.flatMap fun node => node.blocks.getD []

/-- Every table of a feature: those of its steps and those of its Examples
    blocks. -/
def Feature.tables (feature : Feature) : List Table :=
  feature.steps.filterMap (·.table) ++
    feature.groups.flatMap fun group => group.blocks.filterMap (·.table)

/-- The tags of a group, of its scenarios and of their Examples blocks. -/
def Group.allTags (group : Group) : List Tag :=
  group.tags ++ group.scenarios.flatMap (·.tags) ++ group.blocks.flatMap (·.tags)

def Feature.allTags (feature : Feature) : List Tag := feature.groups.flatMap (·.allTags)

end Gherkin
