/-
  Gherkin/Command/Writer.lean
  ===========================
  **Writers of documents.**

  Two commands print what they have found as one structured document: the tree of
  a file, and the report of a selection.  How such a document is spelled is not
  their business, so they are given a writer.  All that they ask of it is that
  nothing is lost (`Writer.Faithful`).
-/
import Gherkin.Selection

namespace Gherkin.Command

/-- What a selection has found: scenarios, and the limits of the expression. -/
structure Report where
  scenarios : List Selected
  limits : TagExpr.Limits
deriving DecidableEq, Repr

/-- How what a command has found is written as one document. -/
structure Writer where
  /-- The tree of a file, which may hold no feature. -/
  tree : Option Feature → Text
  report : Report → Text

/-- A document determines what it was written for. -/
structure Writer.Faithful (writer : Writer) : Prop where
  tree : Function.Injective writer.tree
  report : Function.Injective writer.report

end Gherkin.Command
