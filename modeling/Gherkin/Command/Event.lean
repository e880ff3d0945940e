/-
  Gherkin/Command/Event.lean
  ==========================
  **What a command reports while it runs.**

  Reports go to the standard error stream: the level, the part of the program
  that speaks, a message and named values.  The records of the library appear
  among them; a record may repeat anything that was read, so the controls in it
  are spelled out.  A report is shown when the configured level does not exclude
  it.
-/
import Gherkin.Command.Config
import Gherkin.Record
import Gherkin.Text.Escape

namespace Gherkin.Command

open Text

inductive Event where
  /-- The program starts. -/
  | starting
  /-- A setting is invalid. -/
  | badConfig (fault : Fault)
  /-- A file is about to be read. -/
  | loading (path : Text)
  /-- The tag expression of a selection was compiled. -/
  | compiled (written : Text)
  /-- All files were checked. -/
  | checked (files failures : Nat)
  /-- All scenarios were judged. -/
  | selected (count : Nat)
  /-- The command failed. -/
  | failed
  /-- The library logged a record. -/
  | logged (record : Record)
deriving DecidableEq, Repr

namespace Event

def level : Event → Level
  | .starting | .checked .. | .selected _ => .summary
  | .loading _ | .compiled _ => .parsing
  | .badConfig _ | .failed => .failures
  | .logged record =>
    match record.severity with
    | .debug => .parsing
    | .warn => .warnings

def target : Event → Text
  | .starting | .badConfig _ | .failed => "gherkin_line".toList
  | .loading _ | .compiled _ | .checked .. | .selected _ => "gherkin_line_cli::cli".toList
  | .logged (.compiledExpression _) => "gherkin_line_tags::expression".toList
  | .logged _ => "gherkin_line::parser".toList

/-- The message of an event, with its named values. -/
def message : Event → Text
  | .starting => "starting gherkin-line version=\"0.1.0\"".toList
  | .badConfig fault => "invalid configuration error=".toList ++ fault.message
  | .loading path => "parsing feature file path=".toList ++ path
  | .compiled written => "compiled tag expression expression=".toList ++ written
  | .checked files failures =>
    "check finished files=".toList ++ decimal files ++ " failures=".toList ++ decimal failures
  | .selected count => "selection finished selected=".toList ++ decimal count
  | .failed => "command failed".toList
  | .logged record => disarm record.message

def levelMark : Level → Text
  | .everything => "TRACE".toList
  | .parsing => "DEBUG".toList
  | .summary => " INFO".toList
  | .warnings => " WARN".toList
  | .failures => "ERROR".toList

def text (event : Event) : Text :=
  levelMark event.level ++ " ".toList ++ event.target ++ ": ".toList ++ event.message

def isShown (configured : Level) (event : Event) : Bool := configured.rank ≤ event.level.rank

/-- The record that an event passes on from the library. -/
def record? : Event → Option Record
  | .logged record => some record
  | _ => none

end Event

end Gherkin.Command
