/-
  Gherkin/Text/Escape.lean
  ========================
  **Texts with their hidden characters spelled out.**

  Two occasions call for it.  A text that is quoted for a reader shows every
  character that would be invisible, would attach to its neighbour or would end
  the quotation (`quote`).  A text that goes to a terminal spells only the
  controls with which a terminal can be misled (`disarm`); everything else
  passes, line feeds and tabulators included.

  A character is spelled by its code point in hexadecimal digits: between
  braces behind a `u`, or, for the ASCII controls that go to a terminal, as two
  digits behind an `x`.
-/
import Gherkin.Text.Extender
import Gherkin.Text.Ignorable
import Gherkin.Text.Unprintable

namespace Gherkin.Text

/-- The code point of a character between braces, without leading zeros. -/
def spellCode (c : Char) : Text :=
  "\\u\x7b".toList ++ Nat.toDigits 16 c.toNat ++ ['\x7d']

/-- The code point of an ASCII character in two digits. -/
def spellByte (c : Char) : Text :=
  "\\x".toList ++ [Nat.digitChar (c.toNat / 16), Nat.digitChar (c.toNat % 16)]

/-! ### Quoting -/

/-- The characters with a spelling of one letter between quotes. -/
def shortSpellings : List (Char × Char) :=
  [('\x00', '0'), ('\t', 't'), ('\r', 'r'), ('\n', 'n'), ('\\', '\\'), ('"', '"')]

/-- Whether a character would be overlooked between quotes: it leaves no mark,
    is drawn as nothing or attaches to the character before it. -/
def isHidden (c : Char) : Bool := isUnprintable c || isIgnorable c || isExtender c

def quoteChar (c : Char) : Text :=
  match shortSpellings.find? (·.1 == c) with
  | some entry => ['\\', entry.2]
  | none => if isHidden c then spellCode c else [c]

def quote (t : Text) : Text := '"' :: t.flatMap quoteChar ++ ['"']

/-! ### Terminals -/

/-- The ASCII controls that are spelled: bell, backspace, form feed, escape and
    delete. -/
def terminalControls : List Char := ['\x07', '\x08', '\x0c', '\x1b', '\x7f']

/-- Whether a character is one of the controls above ASCII, which a terminal
    may read as the start of a command. -/
def isHighControl (c : Char) : Bool := inRanges [(0x80, 0x9F)] c

def disarmChar (c : Char) : Text :=
  if terminalControls.contains c then spellByte c
  else if isHighControl c then spellCode c
  else [c]

def disarm (t : Text) : Text := t.flatMap disarmChar

end Gherkin.Text
