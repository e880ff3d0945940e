/-
  Gherkin/Docstring.lean
  ======================
  **Docstrings and the blocks they are read from.**

  A docstring is a block of lines between two fences of the same kind.  The
  opening fence may name a content type, and its column is the margin of the
  block: every content line gives up that many characters, which must be blank.
-/
import Gherkin.Text.Blank

namespace Gherkin

open Text

structure Docstring where
  /-- The content lines, joined by line feeds. -/
  value : Text
  contentType : Text
  /-- The line of the opening fence. -/
  line : Nat
deriving DecidableEq, Repr

/-- The content type of a docstring that names none. -/
def plainText : Text := "text/plain".toList

inductive Fence where
  | double
  | single
deriving DecidableEq, Repr

def Fence.mark : Fence → Text
  | .double => "\"\"\"".toList
  | .single => "'''".toList

/-- The fence at the start of a text and the trimmed remainder. -/
def Fence.open? (t : Text) : Option (Fence × Text) :=
  [Fence.double, .single].findSome? fun fence =>
    (after? fence.mark t).map fun rest => (fence, trim rest)

/-- A block whose closing fence has not been read yet. -/
structure Block where
  /-- The line of the opening fence. -/
  line : Nat
  fence : Fence
  /-- The number of characters before the opening fence. -/
  margin : Nat
  contentType : Text
  lines : List Text
deriving DecidableEq, Repr

namespace Block

/-- The block opened by a fence in the given raw line. -/
def start (line : Nat) (raw : Text) (fence : Fence) (contentType : Text) : Block where
  line := line
  fence := fence
  margin := (raw.takeWhile isBlank).length
  contentType := if contentType.isEmpty then plainText else contentType
  lines := []

def closes (block : Block) (raw : Text) : Bool := begins block.fence.mark (trim raw)

/-- The block with one more content line, or the text that the margin would cut
    off when that text is not blank. -/
def push (block : Block) (raw : Text) : Except Text Block :=
  let removed := raw.take block.margin
  if removed.all isBlank then
    .ok { block with lines := block.lines ++ [trimEnd (raw.drop block.margin)] }
  else .error removed

def docstring (block : Block) : Docstring where
  value := join '\n' block.lines
  contentType := block.contentType
  line := block.line

end Block

end Gherkin
