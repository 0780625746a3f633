import Amalgam.Text.Blank
import Amalgam.Text.Utf8

/-!
# Class bodies

Names defined directly in the body of a class are attributes and keep their spelling.  Whether a line
stands directly in a class body is read off the indentation: a class block stays open while lines are
indented more than its first line, and its body is indented like the first line inside it.

## Main definitions

* `indentOf` — how far a line is indented
* `ClassBlock` — an open class block
* `ClassBlock.enter` — the blocks open at the next line, and whether the line is in a class body
-/

namespace Amalgam

/-- The bytes of white space at the start of a line. -/
def indentOf (line : List Char) : Nat :=
  byteWidth (line.takeWhile isBlank)

/-- Is the line empty, or only a comment? -/
def isIdleLine (line : List Char) : Bool :=
  match trimStart line with
  | [] => true
  | c :: _ => c == '#'

/-- An open class block: the indentation of its first line, and that of its body once a line was
seen. -/
structure ClassBlock where
  indent : Nat
  body : Option Nat := none
  deriving DecidableEq, Repr

namespace ClassBlock

/-- The open blocks, innermost first, after a line indented by `indent`; and whether that line stands
directly in the innermost body. -/
def settle (indent : Nat) (blocks : List ClassBlock) : List ClassBlock × Bool :=
  match blocks.dropWhile fun block => indent ≤ block.indent with
  | [] => ([], false)
  | block :: outer =>
    let body := block.body.getD indent
    ({ block with body := some body } :: outer, body == indent)

/-- Advances to a line, which may open a class itself. -/
def enter (blocks : List ClassBlock) (line : List Char) (opensClass : Bool) :
    List ClassBlock × Bool :=
  if isIdleLine line then (blocks, false)
  else
    let indent := indentOf line
    let (blocks, inBody) := settle indent blocks
    (if opensClass then { indent } :: blocks else blocks, inBody)

end ClassBlock

end Amalgam
