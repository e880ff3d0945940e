/-
  Gherkin/TagSet.lean
  ===================
  **Sets of tag names.**

  A tag set is a list of bare names without repetition, in the order of their
  first mention.  Names may come with an `@` sign, which is taken off.

  A set is extended in two phases that share one record of the names seen so far.
  First the names that are there lose their sign, in place, and those that have
  been seen before are dropped.  Then the additions are tidied one by one, and
  each that has not been seen is put at the end.
-/
import Gherkin.Text.Blank

namespace Gherkin.TagSet

open Text

structure Progress where
  names : List Text
  /-- All names that have been met, in no order that matters. -/
  seen : List Text

/-- Drop the names that have been seen, and record the others. -/
def retain (seen : List Text) : List Text → Progress
  | [] => ⟨[], seen⟩
  | name :: rest =>
    if seen.contains name then retain seen rest
    else
      let later := retain (name :: seen) rest
      { later with names := name :: later.names }

/-- Put a tag at the end, trimmed and bare, unless that leaves nothing or a name
    that has been seen. -/
def Progress.push (progress : Progress) (tag : Text) : Progress :=
  let name := dropLead '@' (trim tag)
  if name.isEmpty then progress
  else if progress.seen.contains name then progress
  else ⟨progress.names ++ [name], name :: progress.seen⟩

/-- The set of `target` extended by `additions`. -/
def extend (target additions : List Text) : List Text :=
  (additions.foldl Progress.push (retain [] (target.map (dropLead '@')))).names

def merge (base additions : List Text) : List Text := extend (extend [] base) additions

end Gherkin.TagSet
