/-
  Gherkin/Text/Blank.lean
  =======================
  **Blank characters, trimming and words.**

  A character is blank when it has the Unicode property `White_Space`.  The
  property is wider than the ASCII blanks (it holds of the no-break space, of
  U+0085 and of the ideographic space) and narrower than "invisible": the
  zero-width space and the byte order mark are not blank.

  Trimming removes blanks at the ends of a text, and the words of a text are
  its maximal runs of characters that are not blank.
-/
import Gherkin.Text.Ranges

namespace Gherkin.Text

/-- The code point ranges with the property `White_Space`, in order. -/
def blankRanges : List (Nat × Nat) :=
  [(0x09, 0x0D), (0x20, 0x20), (0x85, 0x85), (0xA0, 0xA0), (0x1680, 0x1680),
   (0x2000, 0x200A), (0x2028, 0x2029), (0x202F, 0x202F), (0x205F, 0x205F),
   (0x3000, 0x3000)]

def isBlank (c : Char) : Bool := inRanges blankRanges c

def trimStart (t : Text) : Text := t.dropWhile isBlank

def trimEnd (t : Text) : Text := (t.reverse.dropWhile isBlank).reverse

def trim (t : Text) : Text := trimEnd (trimStart t)

def words (t : Text) : List Text := (splitWhen isBlank t).filter (!·.isEmpty)

/-- The blanks that a text starts with, and the rest. -/
theorem takeWhile_append_trimStart (t : Text) :
    t.takeWhile isBlank ++ trimStart t = t := List.takeWhile_append_dropWhile

end Gherkin.Text
