/-
  Gherkin/Parser.lean
  ===================
  **Parsers.**

  A parser is a catalogue of languages and perhaps a language chosen by the
  caller, which overrules directives in the text.  It reads whole features, the
  bodies of rules, lists of steps and single steps.  Each of these opens a
  session, feeds it the lines of the text and takes the tree out at the end;
  `Parser.log` is what the same reading logs.
-/
import Gherkin.Keyword.Builtin
import Gherkin.Session.Feed
import Gherkin.Text.Escape

namespace Gherkin

open Text

/-- How texts are to be read. -/
structure Parser where
  catalogue : Catalogue
  /-- The language chosen by the caller. -/
  language : Option Text

namespace Parser

def standard : Parser := ⟨Builtin.catalogue, none⟩

def withLanguage (parser : Parser) (code : Text) : Parser := { parser with language := some code }

/-- The language with a code, which must be in the catalogue. -/
def find (parser : Parser) (source : Option Text) (code : Text) : Except Failure Language :=
  match parser.catalogue.find? code with
  | some language => .ok language
  | none => .error ⟨.unknownLanguage code, .whole source⟩

def session (parser : Parser) (entry : Entry) (source : Option Text) :
    Except Failure Session := do
  let standard ← parser.find source parser.catalogue.standard
  let chosen ← match parser.language with
    | some code => (parser.find source code).map some
    | none => .ok none
  return {
    entry := entry
    catalogue := parser.catalogue
    standard := standard
    fixed := chosen.isSome
    source := source
    chosen := chosen
    line := 0
    mode := match entry with
      | .feature => .start
      | .rule => .rule
      | .steps => .steps
    lastType := none
    tags := []
    feature := none
    rule := if entry = .rule then some (.start .absent []) else none
    statement :=
      if entry = .steps then some (.scenario ⟨.absent, [], [], [], none⟩) else none }

def read (parser : Parser) (entry : Entry) (text : Text) (source : Option Text) :
    Except Failure Session := do
  let s ← parser.session entry source
  s.feedAll (lines text)

def log (parser : Parser) (entry : Entry) (text : Text) (source : Option Text) : List Record :=
  match parser.session entry source with
  | .ok s => s.log (lines text)
  | .error _ => []

/-- Read a feature; a text without any statement holds none. -/
def feature (parser : Parser) (text : Text) (source : Option Text) :
    Except Failure (Option Feature) :=
  (parser.read .feature text source).map (·.finishFeature)

def rule (parser : Parser) (text : Text) (source : Option Text) : Except Failure Group :=
  (parser.read .rule text source).map (·.finishRule)

def steps (parser : Parser) (text : Text) (source : Option Text) : Except Failure (List Step) :=
  (parser.read .steps text source).map (·.finishSteps)

/-- Read a text that holds exactly one step. -/
def step (parser : Parser) (text : Text) (source : Option Text) : Except Failure Step := do
  match ← parser.steps text source with
  | [step] => .ok step
  | steps => .error ⟨.stepCount steps.length, .whole source⟩

/-- The chosen language, as it stands in a description. -/
def describeLanguage : Option Text → Text
  | some code => "Some(".toList ++ quote code ++ ")".toList
  | none => "None".toList

/-- A parser in one line, for diagnosis; the catalogue is left out. -/
def description (parser : Parser) : Text :=
  "Parser \x7b language: ".toList ++ describeLanguage parser.language ++ ", .. \x7d".toList

end Parser

/-- Read one line of tags, given with its place among the lines. -/
def readTagLine (line : Text × Nat) : Except Failure (List Tag) :=
  (Tag.ofLine (line.2 + 1) line.1).mapError fun word =>
    ⟨.badTag word, line.2 + 1, some (trim line.1), none⟩

def readTags (text : Text) : Except Failure (List Tag) := do
  let rows ← (terminatedLines text).zipIdx.mapM readTagLine
  return rows.flatten

end Gherkin
