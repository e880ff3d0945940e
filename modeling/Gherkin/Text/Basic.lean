/-
  Gherkin/Text/Basic.lean
  =======================
  **Text as a list of characters, and how it is cut and glued.**

  Everything the library reads and writes is a list of Unicode scalar values.
  This file holds the cuts that do not depend on what the characters mean:
  cutting at a separator, taking off a known beginning or ending, cutting at
  the first or the last occurrence of a character, and comparing words without
  regard to ASCII case.

  Cutting is a right fold, so `splitWhen_cons` is its whole definition, and
  gluing the pieces back with the separator gives the text again
  (`join_split`).
-/
namespace Gherkin

/-- Text, as the list of its characters. -/
abbrev Text := List Char

namespace Text

/-! ### Cutting at separators -/

/-- Put a character in front of the first piece. -/
def onHead (c : Char) : List Text → List Text
  | [] => [[c]]
  | piece :: pieces => (c :: piece) :: pieces

/-- The pieces between the separators.  There is always at least one piece, and
    two neighbouring separators have an empty piece between them. -/
def splitWhen (sep : Char → Bool) (t : Text) : List Text :=
  t.foldr (fun c pieces => if sep c then [] :: pieces else onHead c pieces) [[]]

def split (sep : Char) : Text → List Text := splitWhen (· == sep)

def lines : Text → List Text := split '\n'

def join (sep : Char) : List Text → Text
  | [] => []
  | [piece] => piece
  | piece :: pieces => piece ++ sep :: join sep pieces

@[simp] theorem splitWhen_nil (sep : Char → Bool) : splitWhen sep [] = [[]] := rfl

theorem splitWhen_cons (sep : Char → Bool) (c : Char) (t : Text) :
    splitWhen sep (c :: t) =
      if sep c then [] :: splitWhen sep t else onHead c (splitWhen sep t) := rfl

theorem onHead_ne_nil (c : Char) (pieces : List Text) : onHead c pieces ≠ [] := by
  cases pieces <;> simp [onHead]

theorem splitWhen_ne_nil (sep : Char → Bool) (t : Text) : splitWhen sep t ≠ [] := by
  cases t with
  | nil => simp
  | cons c t =>
    rw [splitWhen_cons]
    split
    · simp
    · exact onHead_ne_nil c _

theorem join_onHead (sep c : Char) {pieces : List Text} (h : pieces ≠ []) :
    join sep (onHead c pieces) = c :: join sep pieces := by
  match pieces, h with
  | [piece], _ => rfl
  | piece :: next :: pieces, _ => rfl

theorem join_nil_cons (sep : Char) {pieces : List Text} (h : pieces ≠ []) :
    join sep ([] :: pieces) = sep :: join sep pieces := by
  match pieces, h with
  | [piece], _ => rfl
  | piece :: next :: pieces, _ => rfl

/-- Nothing is lost by cutting: the pieces glue back to the text. -/
theorem join_split (sep : Char) (t : Text) : join sep (split sep t) = t := by
  induction t with
  | nil => rfl
  | cons c t ih =>
    have hne := splitWhen_ne_nil (· == sep) t
    simp only [split] at ih ⊢
    rw [splitWhen_cons]
    by_cases h : c = sep
    · simp [h, join_nil_cons sep hne, ih]
    · simp [h, join_onHead sep c hne, ih]

/-! ### Known beginnings and endings -/

/-- What follows `lead` in a text that begins with it. -/
def after? : Text → Text → Option Text
  | [], t => some t
  | _ :: _, [] => none
  | c :: lead, d :: t => if c = d then after? lead t else none

/-- What precedes the last character of a text that ends with it. -/
def beforeLast? (c : Char) (t : Text) : Option Text :=
  if t.getLast? = some c then some t.dropLast else none

def begins (lead t : Text) : Bool := (after? lead t).isSome

def leads (c : Char) (t : Text) : Bool := t.head? == some c

def ends (c : Char) (t : Text) : Bool := t.getLast? == some c

def occurs (part : Text) : Text → Bool
  | [] => begins part []
  | c :: t => begins part (c :: t) || occurs part t

/-- A text without the leading character `c`, if it has one. -/
def dropLead (c : Char) (t : Text) : Text := (after? [c] t).getD t

/-- A text without the final character `c`, if it has one. -/
def dropFinal (c : Char) (t : Text) : Text := (beforeLast? c t).getD t

/-- The lines of a text in which a line feed, or a carriage return and a line
    feed, ends a line.  What follows the last line feed is a line if it is not
    empty, and a carriage return at its end belongs to it. -/
def terminatedLines (t : Text) : List Text :=
  (lines t).dropLast.map (dropFinal '\r') ++ (lines t).getLast?.toList.filter (!·.isEmpty)

/-- Exactly the texts that begin with `lead` have something after it. -/
theorem after?_eq_some_iff {lead t rest : Text} :
    after? lead t = some rest ↔ t = lead ++ rest := by
  induction lead generalizing t with
  | nil => simp [after?]
  | cons c lead ih =>
    cases t with
    | nil => simp [after?]
    | cons d t =>
      by_cases h : c = d
      · simp [after?, h, ih]
      · simp [after?, h, Ne.symm h]

/-! ### One cut -/

/-- The parts before and after the first occurrence of a character. -/
def cutFirst? (c : Char) : Text → Option (Text × Text)
  | [] => none
  | d :: t =>
    if d = c then some ([], t)
    else (cutFirst? c t).map fun parts => (d :: parts.1, parts.2)

/-- The parts before and after the last occurrence of a character. -/
def cutLast? (c : Char) : Text → Option (Text × Text)
  | [] => none
  | d :: t =>
    match cutLast? c t with
    | some parts => some (d :: parts.1, parts.2)
    | none => if d = c then some ([], t) else none

/-! ### Words up to ASCII case -/

/-- Equality of words that does not tell ASCII capitals from small letters. -/
def sameWord (a b : Text) : Bool := a.map Char.toLower == b.map Char.toLower

end Text

end Gherkin
