/-
  Gherkin/Tag.lean
  ================
  **Tags and tag lines.**

  A tag is a word behind an `@` sign.  When the part after the word's last
  colon reads as a limit and something precedes that colon, the limit is split
  off; any other colon belongs to the name.  A tag line is a row of such words,
  up to a word that begins a comment.
-/
import Gherkin.Text.Blank
import Gherkin.Text.Decimal

namespace Gherkin

open Text

structure Tag where
  /-- The name, without the `@` sign and without the limit. -/
  name : Text
  /-- The line of the declaration. -/
  line : Nat
  /-- The limit after the last colon. -/
  limit : Option Nat
deriving DecidableEq, Repr

namespace Tag

/-- The name and the limit of a word that ends in a limit. -/
def splitLimit? (word : Text) : Option (Text × Nat) := do
  let (name, suffix) ← cutLast? ':' word
  let limit ← readLimit? suffix
  if name.isEmpty then none else some (name, limit)

def ofWord (word : Text) (line : Nat) : Tag :=
  match splitLimit? word with
  | some (name, limit) => ⟨name, line, some limit⟩
  | none => ⟨word, line, none⟩

def limitSuffix : Option Nat → Text
  | some limit => ':' :: decimal limit
  | none => []

def written (tag : Tag) : Text := '@' :: tag.name ++ limitSuffix tag.limit

/-- The tags of a row of words.  A word that begins with `#` ends the row, and
    any other word without an `@` sign is returned as the offender. -/
def ofWords (line : Nat) : List Text → Except Text (List Tag)
  | [] => .ok []
  | word :: rest =>
    match word with
    | '@' :: name => (ofWords line rest).map (ofWord name line :: ·)
    | '#' :: _ => .ok []
    | _ => .error word

def ofLine (line : Nat) (t : Text) : Except Text (List Tag) := ofWords line (words t)

end Tag

end Gherkin
