/-
  Gherkin/Json.lean
  =================
  **JSON values and how they are laid out.**

  The values needed here are null, natural numbers, texts, arrays and objects
  whose fields keep their order.  The layout puts every entry on a line of its
  own, two spaces deeper than the brackets around it; empty arrays and objects
  stay on one line.  In a quoted text only the quote, the backslash and the
  control characters are escaped.
-/
import Gherkin.Text.Decimal

namespace Gherkin

open Text

inductive Json where
  | null
  | num (n : Nat)
  | str (t : Text)
  | arr (items : List Json)
  | obj (fields : List (Text × Json))

namespace Json

/-! ### Building values -/

/-- A text that may be missing. -/
def optional : Option Text → Json
  | some t => .str t
  | none => .null

def texts (ts : List Text) : Json := .arr (ts.map .str)

def record (fields : List (String × Json)) : Json :=
  .obj (fields.map fun field => (field.1.toList, field.2))

/-! ### Quoting -/

/-- The short escapes of control characters. -/
def shortEscapes : List (Char × Char) :=
  [('\x08', 'b'), ('\x0c', 'f'), ('\n', 'n'), ('\r', 'r'), ('\t', 't')]

def escape (c : Char) : Text :=
  if c = '"' then ['\\', '"']
  else if c = '\\' then ['\\', '\\']
  else
    match shortEscapes.find? (·.1 == c) with
    | some entry => ['\\', entry.2]
    | none =>
      if c.toNat < 0x20 then
        "\\u00".toList ++ [Nat.digitChar (c.toNat / 16), Nat.digitChar (c.toNat % 16)]
      else [c]

def quote (t : Text) : Text := '"' :: t.flatMap escape ++ ['"']

/-! ### Layout -/

/-- A fresh line at the given depth. -/
def freshLine (depth : Nat) : Text := '\n' :: List.replicate (2 * depth) ' '

mutual

/-- The layout of a value whose brackets stand at the given depth. -/
def layout (depth : Nat) : Json → Text
  | .null => "null".toList
  | .num n => decimal n
  | .str t => quote t
  | .arr [] => ['[', ']']
  | .arr (item :: items) =>
    '[' :: freshLine (depth + 1) ++ layout (depth + 1) item ++ layoutItems (depth + 1) items ++
      freshLine depth ++ [']']
  | .obj [] => ['\x7b', '\x7d']
  | .obj ((key, value) :: fields) =>
    '\x7b' :: freshLine (depth + 1) ++ quote key ++ [':', ' '] ++ layout (depth + 1) value ++
      layoutFields (depth + 1) fields ++ freshLine depth ++ ['\x7d']

/-- The further items of an array. -/
def layoutItems (depth : Nat) : List Json → Text
  | [] => []
  | item :: items => ',' :: freshLine depth ++ layout depth item ++ layoutItems depth items

def layoutFields (depth : Nat) : List (Text × Json) → Text
  | [] => []
  | (key, value) :: fields =>
    ',' :: freshLine depth ++ quote key ++ [':', ' '] ++ layout depth value ++
      layoutFields depth fields

end

/-- The document that holds a value. -/
def document (value : Json) : Text := value.layout 0

end Json

end Gherkin
