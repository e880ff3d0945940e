/-
  Gherkin/Command/Usage.lean
  ==========================
  **Reading the arguments of a command.**

  Arguments are read in two scopes: up to the name of the command, and behind
  it.  In each scope an option that takes a value waits for the next argument,
  and paths gather.  What waits is settled, that is checked and recorded, when
  the next option or path of another kind arrives or the scope ends.  So of
  several mistakes the one that is met first in this order is named.
-/
import Gherkin.Command.Config

namespace Gherkin.Command

open Text

/-! ### Invocations -/

/-- What the program is asked to do. -/
inductive Request where
  /-- Print the tree of a file. -/
  | parse (file : Text)
  /-- Report for each file whether it can be parsed. -/
  | check (files : List Text)
  /-- List the scenarios that match all clauses. -/
  | select (clauses : List Text) (json : Bool) (files : List Text)
  /-- List the bundled languages. -/
  | languages
deriving DecidableEq, Repr

structure Invocation where
  level : Option Level
  language : Option Text
  request : Request
deriving DecidableEq, Repr

/-- Why arguments make no invocation. -/
inductive UsageError where
  /-- Nothing was asked for at all. -/
  | nothingAsked
  /-- Options, but no command. -/
  | missingCommand
  /-- A word that names no command. -/
  | unknownCommand
  /-- An option or path that has no place. -/
  | unknownArgument
  /-- A command without its file. -/
  | missingFile
  /-- An option without its value, or an empty path. -/
  | missingValue
  /-- A value that cannot be read. -/
  | invalidValue
  /-- An option given twice. -/
  | repeatedOption
  /-- A value for an option that takes none. -/
  | surplusValue
  /-- A call for help. -/
  | helpRequested
  /-- A question for the version. -/
  | versionRequested
deriving DecidableEq, Repr

/-! ### Scopes and options -/

/-- Where arguments are read. -/
inductive Scope where
  /-- Before the name of the command. -/
  | top
  | parse
  | check
  | select
  | languages
deriving DecidableEq, Repr

namespace Scope

/-- The scope behind the name of a command. -/
def ofCommand? (word : Text) : Option Scope :=
  [("parse", Scope.parse), ("check", .check), ("select", .select),
   ("languages", .languages)].findSome? fun entry =>
    if entry.1.toList = word then some entry.2 else none

/-- Whether there is room for another path behind `count` of them. -/
def takesPath : Scope → Nat → Bool
  | .parse, count => count == 0
  | .check, _ | .select, _ => true
  | .top, _ | .languages, _ => false

end Scope

/-- The options that take a value. -/
inductive ValueOption where
  | level
  | language
  | clause
deriving DecidableEq, Repr

inductive Flag where
  | valued (option : ValueOption)
  | json
  | help
  | version
deriving DecidableEq, Repr

def Flag.ofName? (scope : Scope) (name : Text) : Option Flag :=
  if name = "log-level".toList then some (.valued .level)
  else if name = "language".toList then some (.valued .language)
  else if name = "help".toList then some .help
  else if name = "version".toList ∧ scope = .top then some .version
  else if name = "tags".toList ∧ scope = .select then some (.valued .clause)
  else if name = "json".toList ∧ scope = .select then some .json
  else none

def Flag.ofLetter? (scope : Scope) (letter : Char) : Option Flag :=
  if letter = 'h' then some .help
  else if letter = 'V' ∧ scope = .top then some .version
  else none

/-! ### One scope -/

/-- What waits to be settled. -/
inductive Pending where
  | nothing
  /-- An option that waits for its value. -/
  | awaiting (option : ValueOption)
  /-- An option with its value. -/
  | given (option : ValueOption) (value : Text)
  /-- Paths without an option between them. -/
  | paths (paths : List Text)
deriving DecidableEq, Repr

/-- What has been read in a scope. -/
structure Gathered where
  level : Option Level
  language : Option Text
  clauses : List Text
  json : Bool
  files : List Text
  /-- The number of paths, settled or not. -/
  pathCount : Nat
  pending : Pending
  /-- Whether `--` has turned the rest into paths. -/
  pathsOnly : Bool
deriving DecidableEq, Repr

namespace Gathered

def empty : Gathered := ⟨none, none, [], false, [], 0, .nothing, false⟩

def record (g : Gathered) (option : ValueOption) (value : Text) : Except UsageError Gathered :=
  match option with
  | .level =>
    if g.level.isSome then .error .repeatedOption
    else
      match Level.read value with
      | .ok level => .ok { g with level := some level }
      | .error _ => .error .invalidValue
  | .language =>
    if g.language.isSome then .error .repeatedOption
    else .ok { g with language := some value }
  | .clause => .ok { g with clauses := g.clauses ++ [value] }

/-- Check and record what waits. -/
def settle (g : Gathered) : Except UsageError Gathered :=
  match g.pending with
  | .nothing => .ok g
  | .awaiting _ => .error .missingValue
  | .given option value => { g with pending := .nothing }.record option value
  | .paths paths =>
    if paths.any (·.isEmpty) then .error .missingValue
    else .ok { g with files := g.files ++ paths, pending := .nothing }

def takeFlag (g : Gathered) (flag : Flag) (value : Option Text) : Except UsageError Gathered :=
  match flag, value with
  | .valued option, some value => do
    let g ← g.settle
    g.record option value
  | .valued option, none => do
    let g ← g.settle
    return { g with pending := .awaiting option }
  | _, some _ => .error .surplusValue
  | .json, none => do
    let g ← g.settle
    if g.json then .error .repeatedOption else .ok { g with json := true }
  | .help, none => do
    let _ ← g.settle
    .error .helpRequested
  | .version, none => do
    let _ ← g.settle
    .error .versionRequested

def takePath (g : Gathered) (scope : Scope) (path : Text) : Except UsageError Gathered :=
  if !scope.takesPath g.pathCount then
    .error (if scope = .top then .unknownCommand else .unknownArgument)
  else
    match g.pending with
    | .paths paths =>
      .ok { g with pending := .paths (paths ++ [path]), pathCount := g.pathCount + 1 }
    | _ => do
      let g ← g.settle
      return { g with pending := .paths [path], pathCount := g.pathCount + 1 }

/-- The option that an argument is, with its attached value: `--name`,
    `--name=value`, or a dash with letters, of which the first one counts.
    `some none` is an option that the scope does not have. -/
def option? (scope : Scope) (argument : Text) : Option (Option (Flag × Option Text)) :=
  match argument with
  | '-' :: '-' :: name =>
    match cutFirst? '=' name with
    | some (name, value) => some ((Flag.ofName? scope name).map (·, some value))
    | none => some ((Flag.ofName? scope name).map (·, none))
  | '-' :: letter :: _ => some ((Flag.ofLetter? scope letter).map (·, none))
  | _ => none

/-- Read one argument.  A clause may look like an option, so it is taken as it
    stands. -/
def take (scope : Scope) (g : Gathered) (argument : Text) : Except UsageError Gathered :=
  if g.pathsOnly then g.takePath scope argument
  else if g.pending = .awaiting .clause then .ok { g with pending := .given .clause argument }
  else if argument = "--".toList then .ok { g with pathsOnly := true }
  else
    match option? scope argument with
    | some (some (flag, value)) => g.takeFlag flag value
    | some none => .error .unknownArgument
    | none =>
      match g.pending with
      | .awaiting option => .ok { g with pending := .given option argument }
      | _ => g.takePath scope argument

end Gathered

/-! ### Whole command lines -/

/-- Whether an argument is awaited as the value of an option. -/
def Gathered.awaits (g : Gathered) : Bool :=
  match g.pending with
  | .awaiting _ => true
  | _ => false

/-- The request of a command, which may lack its file. -/
def Gathered.request (g : Gathered) : Scope → Except UsageError Request
  | .top => .error .missingCommand
  | .languages => .ok .languages
  | .parse =>
    match g.files with
    | file :: _ => .ok (.parse file)
    | [] => .error .missingFile
  | .check => if g.files.isEmpty then .error .missingFile else .ok (.check g.files)
  | .select =>
    if g.files.isEmpty then .error .missingFile else .ok (.select g.clauses g.json g.files)

/-- A call for help on the named commands. -/
def helpOn : List Text → UsageError
  | [] => .helpRequested
  | [word] =>
    if (Scope.ofCommand? word).isSome || word = "help".toList then .helpRequested
    else .unknownCommand
  | _ => .unknownCommand

/-- Read the arguments behind the name of a command.  Options there override
    those in front of it. -/
def readCommand (top : Gathered) (scope : Scope) (arguments : List Text) :
    Except UsageError Invocation := do
  let g ← arguments.foldlM (Gathered.take scope) .empty
  let g ← g.settle
  let request ← g.request scope
  let top ← top.settle
  return ⟨g.level.or top.level, g.language.or top.language, request⟩

def readTop (g : Gathered) : List Text → Except UsageError Invocation
  | [] => do
    let g ← g.settle
    .error (if g.level.isNone && g.language.isNone then .nothingAsked else .missingCommand)
  | argument :: rest =>
    let isCommand := (Scope.ofCommand? argument).isSome
    if g.pathsOnly && (isCommand || argument = "help".toList) then .error .unknownArgument
    else if !g.pathsOnly && !g.awaits && argument = "help".toList then .error (helpOn rest)
    else
      match if g.pathsOnly || g.awaits then none else Scope.ofCommand? argument with
      | some scope => readCommand g scope rest
      | none => do readTop (← g.take .top argument) rest

def readArguments (arguments : List Text) : Except UsageError Invocation :=
  readTop .empty arguments

end Gherkin.Command
