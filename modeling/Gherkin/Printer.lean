/-
  Gherkin/Printer.lean
  ====================
  **Writing a feature as text.**

  The written form indents by two spaces per level, spells the keywords that
  the tree recorded, and starts with a language directive unless the language
  is the one that is assumed anyway.  A step with an argument gets back the
  colon that the argument took over.  A docstring stands between double-quote
  fences, or between single-quote fences when its value contains the former.
-/
import Gherkin.Keyword.Builtin
import Gherkin.Tree

namespace Gherkin

open Text

namespace Printer

/-- A line at a given depth; a line without text has no indentation either. -/
def indent (depth : Nat) (line : Text) : Text :=
  if line.isEmpty then [] else List.replicate (2 * depth) ' ' ++ line

def block (depth : Nat) (lines : List Text) : List Text := lines.map (indent depth)

/-! ### Single lines -/

def directive (code : Text) : Text := "# language: ".toList ++ code

def header (h : Header) : Text :=
  if h.title.isEmpty then h.keyword ++ [':'] else h.keyword ++ ": ".toList ++ h.title

/-- The line of tags above a header; no line when there are none. -/
def tagLine (tags : List Tag) : List Text :=
  if tags.isEmpty then [] else [join ' ' (tags.map (·.written))]

/-- The scripts that write words without spaces: kana and Han characters. -/
def isSpaceless (c : Char) : Bool :=
  inRanges [(0x3040, 0x30FF), (0x3400, 0x4DBF), (0x4E00, 0x9FFF)] c

/-- What stands between the keyword and the text of a step. -/
def separator (keyword : Text) : Text :=
  if ends '\x27' keyword || keyword.any isSpaceless then [] else [' ']

def stepLine (step : Step) : Text :=
  step.keyword ++ separator step.keyword ++ step.text ++
    (if step.hasArgument then [':'] else [])

/-- The fence for a docstring: double quotes, unless its value contains them. -/
def fence (value : Text) : Fence := if occurs Fence.double.mark value then .single else .double

def openingFence (docstring : Docstring) : Text :=
  (fence docstring.value).mark ++
    (if docstring.contentType = plainText then [] else docstring.contentType)

/-! ### Nodes -/

def table (depth : Nat) (table : Table) : List Text := block depth (table.grid.map Cells.write)

def docstring (depth : Nat) (docstring : Docstring) : List Text :=
  block depth
    (openingFence docstring :: lines docstring.value ++ [(fence docstring.value).mark])

/-- A step with its arguments below it. -/
def step (depth : Nat) (step : Step) : List Text :=
  indent depth (stepLine step) ::
    step.table.elim [] (table (depth + 1)) ++ step.docstring.elim [] (docstring (depth + 1))

def background (depth : Nat) (node : Background) : List Text :=
  indent depth (header node.header) :: block (depth + 1) node.description ++
    node.steps.flatMap (step (depth + 1))

def examples (depth : Nat) (node : Examples) : List Text :=
  block depth (tagLine node.tags) ++ indent depth (header node.header) ::
    node.table.elim [] (table (depth + 1))

def scenario (depth : Nat) (node : Scenario) : List Text :=
  block depth (tagLine node.tags) ++ indent depth (header node.header) ::
    block (depth + 1) node.description ++ node.steps.flatMap (step (depth + 1)) ++
    (node.blocks.getD []).flatMap (examples (depth + 1))

/-- A group whose header stands at one depth and its statements at another. -/
def group (depth inner : Nat) (node : Group) : List Text :=
  block depth (tagLine node.tags) ++ indent depth (header node.header) ::
    block inner node.description ++ node.background.elim [] (background inner) ++
    node.scenarios.flatMap (scenario inner)

def feature (node : Feature) : List Text :=
  (if node.language = Builtin.standard then [] else [directive node.language]) ++
    group 0 1 node.top ++ node.rules.flatMap (group 1 2)

end Printer

/-- The written form of a feature: its lines, each with a line feed behind. -/
def Feature.render (feature : Feature) : Text :=
  (Printer.feature feature).flatMap (· ++ ['\n'])

end Gherkin
