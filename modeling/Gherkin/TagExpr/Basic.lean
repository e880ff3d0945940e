/-
  Gherkin/TagExpr/Basic.lean
  ==========================
  **Tag expressions.**

  An expression is a conjunction of clauses, and a clause a disjunction of
  terms.  A clause is compiled as a whole: its terms are read first, and then
  their limits are entered into one table for the expression, where a tag may
  have only one limit.  Blank clauses are left out, so an expression without
  clauses matches everything.

  In written form clauses are separated by blanks and terms by commas.  Blanks
  next to a comma do not separate.
-/
import Gherkin.TagExpr.Limits
import Gherkin.TagExpr.Term

namespace Gherkin

open Text TagExpr

structure TagExpr where
  clauses : List (List TagExpr.Term)
  limits : TagExpr.Limits
deriving DecidableEq, Repr

namespace TagExpr

/-- The expression that matches everything. -/
def empty : TagExpr := ⟨[], []⟩

/-! ### Compiling -/

/-- The table with the limit of one more term. -/
def addLimit (limits : Limits) (term : Term) : Except Flaw Limits :=
  match term.limit with
  | none => .ok limits
  | some limit =>
    match limits.get? term.name with
    | none => .ok (limits.insert term.name limit)
    | some existing =>
      if existing = limit then .ok limits
      else .error (.conflictingLimit term.name existing limit)

def readClause (clause : Text) : Except Flaw (List Term) :=
  (split ',' clause).mapM (Term.read · clause)

def addClause (expr : TagExpr) (clause : Text) : Except Flaw TagExpr :=
  if (trim clause).isEmpty then .ok expr
  else do
    let terms ← readClause (trim clause)
    let limits ← terms.foldlM addLimit expr.limits
    return ⟨expr.clauses ++ [terms], limits⟩

def compile (clauses : List Text) : Except Flaw TagExpr := clauses.foldlM addClause empty

/-! ### Matching -/

/-- Whether a list of tag names satisfies the expression. -/
def holds (expr : TagExpr) (tags : List Text) : Bool :=
  expr.clauses.all fun clause => clause.any (·.holds tags)

def limit? (expr : TagExpr) (tag : Text) : Option Nat := expr.limits.get? (dropLead '@' tag)

/-! ### The written form -/

def written (expr : TagExpr) : Text :=
  join ' ' (expr.clauses.map fun clause => join ',' (clause.map (·.written)))

/-- The clauses with one more word: a comma at the seam makes it part of the
    last clause. -/
def attach (clauses : List Text) (word : Text) : List Text :=
  match clauses.getLast? with
  | some last =>
    if ends ',' last || leads ',' word then clauses.dropLast ++ [last ++ word]
    else clauses ++ [word]
  | none => [word]

/-- The clauses of an expression in written form. -/
def splitClauses (t : Text) : List Text := (words t).foldl attach []

def read (t : Text) : Except Flaw TagExpr := compile (splitClauses t)

end TagExpr

end Gherkin
