/-
  Gherkin/Text/Ignorable.lean
  ===========================
  **Characters that are drawn as nothing.**

  A character with the Unicode property `Default_Ignorable_Code_Point` has no
  shape of its own when nothing gives it one.  Most of these are unprintable or
  attach to the character before them anyway; the property adds the fillers of
  Hangul, which are letters by category and yet cannot be seen.
-/
import Gherkin.Text.Ranges

namespace Gherkin.Text

/-- The code point ranges with the property `Default_Ignorable_Code_Point`, in
    order. -/
def ignorableRanges : List (Nat × Nat) :=
  [(0xAD, 0xAD), (0x34F, 0x34F), (0x61C, 0x61C), (0x115F, 0x1160), (0x17B4, 0x17B5),
   (0x180B, 0x180F), (0x200B, 0x200F), (0x202A, 0x202E), (0x2060, 0x206F), (0x3164, 0x3164),
   (0xFE00, 0xFE0F), (0xFEFF, 0xFEFF), (0xFFA0, 0xFFA0), (0xFFF0, 0xFFF8),
   (0x1BCA0, 0x1BCA3), (0x1D173, 0x1D17A), (0xE0000, 0xE0FFF)]

/-- Whether a character is drawn as nothing. -/
def isIgnorable (c : Char) : Bool := inRanges ignorableRanges c

end Gherkin.Text
