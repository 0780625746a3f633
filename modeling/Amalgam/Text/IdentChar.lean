import Amalgam.Text.LetterNumber

/-!
# Identifier characters

A character can stand inside an identifier when it is an underscore, a letter or a number.  Renaming
uses this class to find where a name starts and ends, so it is the full Unicode class; the lexer, which
only has to recognise the names a program may declare, uses the ASCII classes `isNameStart` and
`isNameChar`.

## Main definitions

* `isIdentChar` — underscore, letter or number of any script
* `isNameStart`, `isNameChar` — the ASCII letters, underscore and digits a name is made of
-/

namespace Amalgam

/-- An underscore, a letter or a number.  ASCII characters never reach the table. -/
def isIdentChar (c : Char) : Bool :=
  c == '_' || c.isAlphanum || (0x80 ≤ c.toNat && inRanges c.toNat letterNumberRanges)

/-- The first character of an ASCII name. -/
def isNameStart (c : Char) : Bool :=
  c == '_' || c.isAlpha

/-- A later character of an ASCII name. -/
def isNameChar (c : Char) : Bool :=
  c == '_' || c.isAlphanum

end Amalgam
