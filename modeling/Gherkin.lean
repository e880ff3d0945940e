import Gherkin.Command.Config
import Gherkin.Command.Event
import Gherkin.Command.Execution
import Gherkin.Command.Files
import Gherkin.Command.Plan
import Gherkin.Command.Program
import Gherkin.Command.Usage
import Gherkin.Command.Writer
import Gherkin.Cursor.Basic
import Gherkin.Cursor.Handling
import Gherkin.Cursor.Parsing
import Gherkin.Docstring
import Gherkin.Failure
import Gherkin.Json
import Gherkin.Json.Tree
import Gherkin.Keyword.Builtin
import Gherkin.Keyword.Catalogue
import Gherkin.Keyword.Category
import Gherkin.Keyword.Recognition
import Gherkin.Main
import Gherkin.Parser
import Gherkin.Printer
import Gherkin.Record
import Gherkin.Selection
import Gherkin.Session.Basic
import Gherkin.Session.Diagnosis
import Gherkin.Session.Feed
import Gherkin.Session.Readers
import Gherkin.StepType
import Gherkin.Table.Basic
import Gherkin.Table.Cells
import Gherkin.Tag
import Gherkin.TagExpr.Basic
import Gherkin.TagExpr.Limits
import Gherkin.TagExpr.Term
import Gherkin.TagSet
import Gherkin.Text.Basic
import Gherkin.Text.Blank
import Gherkin.Text.Decimal
import Gherkin.Text.Escape
import Gherkin.Text.Extender
import Gherkin.Text.Ignorable
import Gherkin.Text.Lower
import Gherkin.Text.Ranges
import Gherkin.Text.Unprintable
import Gherkin.Tree
import Gherkin.Proofs.Answers
import Gherkin.Proofs.Session.Coherence
import Gherkin.Proofs.Session.Drafting
import Gherkin.Proofs.Session.Faithfulness
import Gherkin.Proofs.Session.Growth
import Gherkin.Proofs.Session.Locality
import Gherkin.Proofs.Session.SourceOrder
import Gherkin.Proofs.Session.TagAttachment
import Gherkin.Proofs.Table.Rows
import Gherkin.Proofs.Table.Delimiters
import Gherkin.Proofs.Keyword.Clarity
import Gherkin.Proofs.RoundTrip.Draft
import Gherkin.Proofs.Tag.Words
import Gherkin.Proofs.Tag.Limits
import Gherkin.Proofs.RoundTrip.Lines
import Gherkin.Proofs.RoundTrip.Arguments
import Gherkin.Proofs.RoundTrip.Written
import Gherkin.Proofs.RoundTrip.Nodes
import Gherkin.Proofs.RoundTrip.Rendering
import Gherkin.Proofs.RoundTrip.StepLines
import Gherkin.Proofs.RoundTrip.Fences
import Gherkin.Proofs.Session.Renumbering
import Gherkin.Proofs.Session.RuleFragment
import Gherkin.Proofs.Session.Fragments
import Gherkin.Proofs.Session.IdleLines
import Gherkin.Proofs.Session.LanguageChoice
import Gherkin.Proofs.Session.TrailingBlanks
import Gherkin.Proofs.Tree.Arguments
import Gherkin.Proofs.Session.StepArguments
import Gherkin.Proofs.TagExpr.Terms
import Gherkin.Proofs.TagExpr.Compiling
import Gherkin.Proofs.TagExpr.WrittenForm
import Gherkin.Proofs.TagExpr.Outcome
import Gherkin.Proofs.TagExpr.Spacing
import Gherkin.Proofs.Tag.Sets
import Gherkin.Proofs.Selection
import Gherkin.Proofs.Tag.OwnTags
import Gherkin.Proofs.Keyword.StepWords
import Gherkin.Proofs.Session.StepTypes
import Gherkin.Proofs.Session.Unexpected
import Gherkin.Proofs.Session.DocstringCapture
import Gherkin.Proofs.Command.Output
import Gherkin.Proofs.Json.Layout
import Gherkin.Proofs.Json.Tree
import Gherkin.Proofs.Session.LogDiscipline
import Gherkin.Proofs.Cursor.Handlers
import Gherkin.Proofs.Cursor.Simulation
import Gherkin.Proofs.Cursor.Parsing
import Gherkin.Proofs.Cursor.Coherence
import Gherkin.Proofs.Session.WellFormed
import Gherkin.Proofs.RoundTrip.LanguageKept
import Gherkin.Proofs.Keyword.Unambiguous
import Gherkin.Proofs.Session.TagText
