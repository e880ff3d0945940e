/-
  Gherkin/Selection.lean
  ======================
  **Selecting scenarios by their tags.**

  A scenario has the tags of its feature, of its rule and its own.  An outline
  is judged once per Examples block, with the tags of the block added, and it is
  selected when one of them is.
-/
import Gherkin.TagExpr.Basic
import Gherkin.TagSet
import Gherkin.Tree

namespace Gherkin

structure Selected where
  source : Option Text
  /-- The title of the rule around it. -/
  rule : Option Text
  title : Text
  line : Nat
  /-- The effective tags. -/
  tags : List Text
deriving DecidableEq, Repr

namespace Selection

def names (tags : List Tag) : List Text := tags.map (·.name)

/-- The tags of a scenario, with those it inherits in front. -/
def effectiveTags (feature : Feature) (rule : Option Group) (scenario : Scenario) : List Text :=
  let inherited := TagSet.merge (names feature.top.tags) (rule.elim [] fun rule => names rule.tags)
  TagSet.merge inherited (names scenario.tags)

def isSelected (expr : TagExpr) (scenario : Scenario) (tags : List Text) : Bool :=
  match scenario.blocks with
  | none | some [] => expr.holds tags
  | some blocks => blocks.any fun block => expr.holds (TagSet.merge tags (names block.tags))

/-- The selected scenarios of a feature, in source order. -/
def select (feature : Feature) (expr : TagExpr) : List Selected :=
  feature.scenarios.filterMap fun (rule, scenario) =>
    let tags := effectiveTags feature rule scenario
    if isSelected expr scenario tags then
      some ⟨feature.source, rule.map (·.header.title), scenario.header.title,
        scenario.header.line, tags⟩
    else none

end Selection

end Gherkin
