/-
  Gherkin/Table/Basic.lean
  ========================
  **Data tables.**

  The first row of a table holds its headings, and every further row is one
  record.  A table is built row by row, and it refuses a row whose width is not
  that of the headings.
-/
import Gherkin.Table.Cells

namespace Gherkin

structure Row where
  cells : List Text
  line : Nat
deriving DecidableEq, Repr

structure Table where
  headings : List Text
  rows : List Row
  /-- The line of the headings. -/
  line : Nat
deriving DecidableEq, Repr

namespace Table

def start (headings : List Text) (line : Nat) : Table := ⟨headings, [], line⟩

/-- The table with one more row, if the row is as wide as the headings. -/
def push? (table : Table) (row : Row) : Option Table :=
  if row.cells.length = table.headings.length then
    some { table with rows := table.rows ++ [row] }
  else none

/-- The headings and the records, as lists of cells. -/
def grid (table : Table) : List (List Text) := table.headings :: table.rows.map (·.cells)

end Table

end Gherkin
