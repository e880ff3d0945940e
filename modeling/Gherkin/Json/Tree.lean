/-
  Gherkin/Json/Tree.lean
  ======================
  **Trees and selections as JSON.**

  Each node becomes an object with its fields in a fixed order, and a missing
  part becomes null.  A scenario says first which kind it is, and only an
  outline has a field for its Examples blocks.  The rule of a selected scenario
  is the one field that is left out when there is none.
-/
import Gherkin.Json
import Gherkin.Selection

namespace Gherkin

def Json.part {α : Type} (toJson : α → Json) : Option α → Json
  | some a => toJson a
  | none => .null

def Tag.toJson (tag : Tag) : Json :=
  .record [("name", .str tag.name), ("line", .num tag.line), ("limit", .part .num tag.limit)]

def Row.toJson (row : Row) : Json :=
  .record [("cells", .texts row.cells), ("line", .num row.line)]

def Table.toJson (table : Table) : Json :=
  .record [("headings", .texts table.headings), ("rows", .arr (table.rows.map Row.toJson)),
    ("line", .num table.line)]

def Docstring.toJson (docstring : Docstring) : Json :=
  .record [("value", .str docstring.value), ("content_type", .str docstring.contentType),
    ("line", .num docstring.line)]

def Step.toJson (step : Step) : Json :=
  .record [("keyword", .str step.keyword), ("step_type", .str step.type.name),
    ("text", .str step.text), ("table", .part Table.toJson step.table),
    ("docstring", .part Docstring.toJson step.docstring), ("line", .num step.line)]

def Json.tags (tags : List Tag) : Json := .arr (tags.map Tag.toJson)

def Json.steps (steps : List Step) : Json := .arr (steps.map Step.toJson)

def Background.toJson (node : Background) : Json :=
  .record [("keyword", .str node.header.keyword), ("title", .str node.header.title),
    ("description", .texts node.description), ("steps", .steps node.steps),
    ("line", .num node.header.line)]

def Examples.toJson (node : Examples) : Json :=
  .record [("keyword", .str node.header.keyword), ("title", .str node.header.title),
    ("tags", .tags node.tags), ("table", .part Table.toJson node.table),
    ("line", .num node.header.line)]

def Scenario.toJson (node : Scenario) : Json :=
  let shared : List (String × Json) :=
    [("keyword", .str node.header.keyword), ("title", .str node.header.title),
     ("description", .texts node.description), ("tags", .tags node.tags),
     ("steps", .steps node.steps)]
  let line : List (String × Json) := [("line", .num node.header.line)]
  match node.blocks with
  | none => .record (("kind", .str "scenario".toList) :: shared ++ line)
  | some blocks =>
    .record (("kind", .str "outline".toList) :: shared ++
      ("examples", .arr (blocks.map Examples.toJson)) :: line)

def Group.fields (node : Group) : List (String × Json) :=
  [("keyword", .str node.header.keyword), ("title", .str node.header.title),
   ("description", .texts node.description), ("tags", .tags node.tags),
   ("background", .part Background.toJson node.background),
   ("scenarios", .arr (node.scenarios.map Scenario.toJson))]

/-- A rule. -/
def Group.toJson (node : Group) : Json :=
  .record (node.fields ++ [("line", .num node.header.line)])

def Feature.toJson (node : Feature) : Json :=
  .record (("source", .optional node.source) :: ("language", .str node.language) ::
    node.top.fields ++
    [("rules", .arr (node.rules.map Group.toJson)), ("line", .num node.top.header.line)])

def Selected.toJson (scenario : Selected) : Json :=
  .record (("source", .optional scenario.source) ::
    (scenario.rule.elim [] fun rule => [("rule", .str rule)]) ++
    [("title", .str scenario.title), ("line", .num scenario.line), ("tags", .texts scenario.tags)])

def TagExpr.Limits.toJson (limits : TagExpr.Limits) : Json :=
  .obj (limits.map fun entry => (entry.1, .num entry.2))

end Gherkin
