/-
  Gherkin/TagExpr/Term.lean
  =========================
  **Terms of tag expressions.**

  A term asks for a tag, or with a `-` or `~` in front for its absence.  The
  `@` sign is optional, and a limit may follow a colon.  Unlike a tag in a
  feature, a term is cut at its first colon, and what follows must be a limit.
-/
import Gherkin.Text.Blank
import Gherkin.Text.Decimal

namespace Gherkin.TagExpr

open Text

inductive Flaw where
  /-- One tag with two limits. -/
  | conflictingLimit (tag : Text) (existing requested : Nat)
  /-- A limit that is no number. -/
  | invalidLimit (term value : Text)
  /-- A term without a tag name. -/
  | emptyTerm (clause : Text)
deriving DecidableEq, Repr

def Flaw.message : Flaw → Text
  | .conflictingLimit tag existing requested =>
    "inconsistent tag limits for ".toList ++ tag ++ ": ".toList ++ decimal existing ++
      " and ".toList ++ decimal requested
  | .invalidLimit term value =>
    "invalid limit `".toList ++ value ++ "` in tag term `".toList ++ term ++ "`".toList
  | .emptyTerm clause => "empty tag term in clause `".toList ++ clause ++ "`".toList

structure Term where
  /-- The name of the tag. -/
  name : Text
  /-- Whether the tag must be absent. -/
  negated : Bool
  limit : Option Nat
deriving DecidableEq, Repr

namespace Term

/-- The spellings of a negation, longer ones first. -/
def negations : List Text := ["-@".toList, "~@".toList, "-".toList, "~".toList]

/-- Whether a trimmed term is negated, and what follows its sign. -/
def sign (t : Text) : Bool × Text :=
  match after? ['@'] t with
  | some rest => (false, rest)
  | none =>
    match negations.findSome? (after? · t) with
    | some rest => (true, rest)
    | none => (false, t)

/-- The name and the limit in what follows the sign; an unreadable limit is
    returned as it stands. -/
def splitLimit (body : Text) : Except Text (Text × Option Nat) :=
  match cutFirst? ':' body with
  | none => .ok (body, none)
  | some (name, value) =>
    match readLimit? (trim value) with
    | some limit => .ok (name, some limit)
    | none => .error value

/-- Read a term that stands in the given clause. -/
def read (raw clause : Text) : Except Flaw Term :=
  let (negated, body) := sign (trim raw)
  match splitLimit body with
  | .error value => .error (.invalidLimit (trim raw) value)
  | .ok (name, limit) =>
    if (trim name).isEmpty then .error (.emptyTerm (trim clause))
    else .ok ⟨trim name, negated, limit⟩

def written (term : Term) : Text :=
  (if term.negated then ['-'] else []) ++ term.name ++
    (match term.limit with
      | some limit => ':' :: decimal limit
      | none => [])

def holds (term : Term) (tags : List Text) : Bool := tags.contains term.name != term.negated

end Term

end Gherkin.TagExpr
