/-
  Gherkin/Text/Ranges.lean
  ========================
  **Classes of characters as ranges of code points.**

  A property of characters from the Unicode tables is kept as the list of the
  closed ranges of code points that have it, in order and without overlap.
-/
import Gherkin.Text.Basic

namespace Gherkin.Text

/-- Whether the code point of a character lies in one of the ranges, whose ends
    belong to them. -/
def inRanges (ranges : List (Nat × Nat)) (c : Char) : Bool :=
  ranges.any fun range => range.1 ≤ c.toNat && c.toNat ≤ range.2

/-- A character lies in ranges exactly when one of them holds it. -/
theorem inRanges_eq_true_iff {ranges : List (Nat × Nat)} {c : Char} :
    inRanges ranges c = true ↔ ∃ range ∈ ranges, range.1 ≤ c.toNat ∧ c.toNat ≤ range.2 := by
  simp [inRanges]

end Gherkin.Text
