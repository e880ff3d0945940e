/-
  Gherkin/Record.lean
  ===================
  **What is logged along the way.**

  Reading a text reports how its language was chosen and which slips it
  forgives; reading a file and compiling a tag expression report that they
  happened.  A record is data, and `Record.message` words it.
-/
import Gherkin.Failure

namespace Gherkin

open Text

inductive Severity where
  | debug
  | warn
deriving DecidableEq, Repr

inductive Record where
  /-- Keywords were needed and nobody had chosen a language. -/
  | standardLanguage (code : Text)
  /-- A directive chose a language. -/
  | directiveSelects (code : Text)
  /-- A directive was overruled by the caller. -/
  | directiveIgnored (code : Text)
  /-- A file has been read and is about to be parsed. -/
  | readingFile (path : Text)
  /-- A tag expression was compiled; it is given in its rendered form. -/
  | compiledExpression (written : Text)
  /-- A table row without a closing pipe. -/
  | openRow (source : Option Text) (line : Nat)
  /-- A docstring without a closing fence; the line is that of the opening
      one. -/
  | openDocstring (source : Option Text) (line : Nat)
  /-- Tags with no statement behind them; the line is that of the first one. -/
  | danglingTags (source : Option Text) (line : Nat)
deriving DecidableEq, Repr

namespace Record

/-- A slip that is forgiven is a warning, everything else is detail. -/
def severity : Record → Severity
  | .openRow .. | .openDocstring .. | .danglingTags .. => .warn
  | _ => .debug

def place (source : Option Text) (line : Nat) : Text :=
  source.getD anonymous ++ ": line ".toList ++ decimal line

def message : Record → Text
  | .standardLanguage code => "no language selected; using `".toList ++ code ++ "`".toList
  | .directiveSelects code => "language directive selects `".toList ++ code ++ "`".toList
  | .directiveIgnored code =>
    "ignoring language directive `".toList ++ code ++ "`: language fixed by caller".toList
  | .readingFile path => "parsing feature file ".toList ++ path
  | .compiledExpression written =>
    "compiled tag expression `".toList ++ written ++ "`".toList
  | .openRow source line => "Malformed table row at ".toList ++ place source line
  | .openDocstring source line => "Unterminated multiline text at ".toList ++ place source line
  | .danglingTags source line => "Tags without a statement at ".toList ++ place source line

end Record

end Gherkin
