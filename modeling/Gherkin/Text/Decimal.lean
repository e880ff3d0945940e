/-
  Gherkin/Text/Decimal.lean
  =========================
  **Decimal numbers and execution limits.**

  Numbers are written in base ten without leading zeros.  A limit is read more
  freely: one leading plus sign and leading zeros are allowed, but every other
  character must be an ASCII digit, there must be at least one, and the number
  must fit into thirty-two bits.
-/
import Gherkin.Text.Basic

namespace Gherkin.Text

def decimal (n : Nat) : Text := Nat.toDigits 10 n

/-- The number that a digit adds to ten times the number before it. -/
def appendDigit (n : Nat) (c : Char) : Nat := 10 * n + (c.toNat - '0'.toNat)

/-- Read a non-empty run of ASCII digits. -/
def readDigits? (t : Text) : Option Nat :=
  if !t.isEmpty && t.all Char.isDigit then some (t.foldl appendDigit 0) else none

/-- Limits lie below this number, the first that needs more than thirty-two
    bits. -/
def limitBound : Nat := 0x100000000

def readLimit? (t : Text) : Option Nat :=
  (readDigits? (dropLead '+' t)).filter (· < limitBound)

end Gherkin.Text
