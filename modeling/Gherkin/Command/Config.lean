/-
  Gherkin/Command/Config.lean
  ===========================
  **The configuration of a command.**

  Two settings come from the environment and can be overridden by options: how
  much is reported, and a language for every file.  The language must be one of
  the bundled ones, whichever way it was chosen.
-/
import Gherkin.Failure
import Gherkin.Keyword.Builtin
import Gherkin.TagExpr.Term

namespace Gherkin.Command

open Text

/-! ### Faults -/

inductive Fault where
  /-- A setting with an invalid value. -/
  | invalidConfig (detail : Text)
  /-- A file that cannot be parsed. -/
  | parse (failure : Failure)
  /-- A tag expression that cannot be compiled. -/
  | tagExpression (flaw : TagExpr.Flaw)
  /-- Output that cannot be written. -/
  | write (complaint : Text)
deriving DecidableEq, Repr

def Fault.message : Fault → Text
  | .invalidConfig detail => "invalid configuration: ".toList ++ detail
  | .parse failure => failure.message
  | .tagExpression flaw => "invalid tag expression: ".toList ++ flaw.message
  | .write complaint => complaint

/-! ### Levels -/

/-- How much is reported, from everything to failures only. -/
inductive Level where
  | everything
  | parsing
  | summary
  | warnings
  | failures
deriving DecidableEq, Repr

namespace Level

def all : List Level := [.everything, .parsing, .summary, .warnings, .failures]

def name : Level → Text
  | .everything => "trace".toList
  | .parsing => "debug".toList
  | .summary => "info".toList
  | .warnings => "warn".toList
  | .failures => "error".toList

/-- The accepted names with their levels. -/
def spellings : List (Text × Level) :=
  [("trace".toList, .everything), ("debug".toList, .parsing), ("info".toList, .summary),
   ("warn".toList, .warnings), ("warning".toList, .warnings), ("error".toList, .failures)]

def read (t : Text) : Except Fault Level :=
  match spellings.find? fun entry => sameWord entry.1 (trim t) with
  | some entry => .ok entry.2
  | none =>
    .error (.invalidConfig ("unknown log level '".toList ++ t ++
      "', expected one of: ".toList ++ List.intercalate ", ".toList (all.map name)))

/-- The rank of a level: a higher rank reports less. -/
def rank : Level → Nat
  | .everything => 0
  | .parsing => 1
  | .summary => 2
  | .warnings => 3
  | .failures => 4

end Level

/-! ### Settings -/

structure Config where
  level : Level
  /-- The language for every file. -/
  language : Option Text
deriving DecidableEq, Repr

namespace Config

def standard : Config := ⟨.warnings, none⟩

def levelVariable : Text := "GHERKIN_LINE_LOG_LEVEL".toList

def languageVariable : Text := "GHERKIN_LINE_LANGUAGE".toList

def validate (config : Config) : Except Fault Config :=
  match config.language with
  | none => .ok config
  | some code =>
    if (Builtin.catalogue.lookup code).isSome then .ok config
    else
      .error (.invalidConfig ("unknown language '".toList ++ code ++
        "', see `gherkin-line languages`".toList))

def languageSetting (value : Option Text) : Option Text :=
  (value.map trim).filter (!·.isEmpty)

def ofEnvironment (env : Text → Option Text) : Except Fault Config := do
  let level ← match env levelVariable with
    | some value => Level.read value
    | none => .ok standard.level
  validate ⟨level, languageSetting (env languageVariable)⟩

def override (config : Config) (level : Option Level) (language : Option Text) :
    Except Fault Config :=
  validate ⟨level.getD config.level, language.or config.language⟩

end Config

end Gherkin.Command
