/-
  Gherkin/Table/Cells.lean
  ========================
  **The cells of a table row.**

  A row is written between pipes.  A pipe with a backslash before it belongs to
  the cell; every other pipe ends one.  Reading takes off the outer pipes, cuts
  at the pipes that end cells, turns each escaped pipe into a plain one and
  trims the cell.  Writing escapes the pipes of a cell and pads it with one
  space on either side.
-/
import Gherkin.Text.Blank

namespace Gherkin

open Text

namespace Cells

/-- Cut at the pipes that have no backslash before them.  `escaped` says
    whether a backslash precedes the text. -/
def cut (escaped : Bool) : Text → List Text
  | [] => [[]]
  | c :: t =>
    if c == '|' && !escaped then [] :: cut false t
    else onHead c (cut (c == '\\') t)

/-- Replace each backslash that stands before a pipe by nothing. -/
def unescape : Text → Text
  | '\\' :: '|' :: t => '|' :: unescape t
  | c :: t => c :: unescape t
  | [] => []

def escape (t : Text) : Text := t.flatMap fun c => if c = '|' then ['\\', '|'] else [c]

/-- A row without its outer pipes. -/
def inner (row : Text) : Text := dropFinal '|' (dropLead '|' row)

def read (row : Text) : List Text := (cut false (inner row)).map fun cell => trim (unescape cell)

def write (cells : List Text) : Text :=
  '|' :: cells.flatMap fun cell => ' ' :: escape cell ++ [' ', '|']

end Cells

end Gherkin
