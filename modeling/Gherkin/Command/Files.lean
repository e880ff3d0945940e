/-
  Gherkin/Command/Files.lean
  ==========================
  **The files that a command reads.**

  Commands see files through a function from paths to texts.  A snapshot of a
  directory gives such a function: a path is walked from component to component
  below the directory, through directories only, and must end at a file whose
  bytes are valid UTF-8.
-/
import Gherkin.Parser

namespace Gherkin

open Text

/-- What reading the file at a path gives: its text, or a complaint. -/
abbrev Files := Text → Except Text Text

namespace Parser

def file (parser : Parser) (files : Files) (path : Text) : Except Failure (Option Feature) :=
  match files path with
  | .ok text => parser.feature text (some path)
  | .error complaint => .error ⟨.unreadable complaint, .whole (some path)⟩

def fileLog (parser : Parser) (files : Files) (path : Text) : List Record :=
  match files path with
  | .ok text => .readingFile path :: parser.log .feature text (some path)
  | .error _ => []

end Parser

/-! ### Snapshots -/

/-- The files below a directory: the components of each path, and the bytes. -/
abbrev Snapshot := List (List Text × ByteArray)

namespace Snapshot

def components (path : Text) : List Text :=
  (split '/' path).filter fun part => !part.isEmpty && part != ['.']

def ofPaths (files : List (Text × ByteArray)) : Snapshot :=
  files.map fun file => (components file.1, file.2)

/-- Whether a place is a directory: the top, or something with a file below. -/
def isDirectory (snapshot : Snapshot) (place : List Text) : Bool :=
  place.isEmpty ||
    snapshot.any fun file => place.isPrefixOf file.1 && place.length < file.1.length

/-- Walk a path from a place, as far as it leads through directories. -/
def walk (snapshot : Snapshot) (place : List Text) : List Text → Option (List Text)
  | [] => some place
  | part :: rest =>
    if !snapshot.isDirectory place then none
    else if part.isEmpty || part = ['.'] then walk snapshot place rest
    else if part = ['.', '.'] then
      if place.isEmpty then none else walk snapshot place.dropLast rest
    else walk snapshot (place ++ [part]) rest

/-- The bytes of the file that a relative path leads to. -/
def bytes? (snapshot : Snapshot) (path : Text) : Option ByteArray := do
  if path.isEmpty || leads '/' path then none
  else
    let place ← snapshot.walk [] (split '/' path)
    (snapshot.find? (·.1 == place)).map (·.2)

/-- The text in bytes that are valid UTF-8. -/
def decode (bytes : ByteArray) : Except Text Text :=
  match String.fromUTF8? bytes with
  | some text => .ok text.toList
  | none => .error "stream did not contain valid UTF-8".toList

def files (snapshot : Snapshot) : Files := fun path =>
  match snapshot.bytes? path with
  | some bytes => decode bytes
  | none => .error "No such file or directory".toList

end Snapshot

end Gherkin
