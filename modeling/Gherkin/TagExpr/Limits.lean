/-
  Gherkin/TagExpr/Limits.lean
  ===========================
  **Limits by tag name.**

  A table of limits lists each tag once, in ascending order of the names, which
  compare character by character by code point.  Two tables with the same
  entries are therefore equal.
-/
import Gherkin.Text.Basic

namespace Gherkin.TagExpr

/-- Tags with their limits, in ascending order. -/
abbrev Limits := List (Text × Nat)

namespace Limits

def get? (limits : Limits) (tag : Text) : Option Nat :=
  (limits.find? (·.1 == tag)).map (·.2)

/-- The table with an entry for a tag that has none yet. -/
def insert (limits : Limits) (tag : Text) (limit : Nat) : Limits :=
  match limits with
  | [] => [(tag, limit)]
  | entry :: rest =>
    if tag < entry.1 then (tag, limit) :: entry :: rest
    else entry :: insert rest tag limit

end Limits

end Gherkin.TagExpr
