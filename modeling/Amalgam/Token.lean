/-!
# Tokens

The shapes of Python source that matter to imports and declarations.  Everything else is `op`: one
kind stands for all operators, brackets and stray characters, since no rule asks which one it was.
String literals and comments are not tokens at all.

## Main definitions

* `Token.Kind`, `Token` — a kind, the byte where the token starts in its line, and its text
* `isKeyword` — the reserved words
-/

namespace Amalgam

/-- The kinds of tokens that are told apart. -/
inductive Token.Kind where
  | importWord
  | fromWord
  | asWord
  | classWord
  | defWord
  | asyncWord
  | ident
  | number
  | dot
  | comma
  | star
  | lparen
  | rparen
  | colon
  | assign
  | semi
  | op
  deriving DecidableEq, Repr

/-- A token of one line. -/
structure Token where
  kind : Token.Kind
  /-- The byte of the line at which the token starts. -/
  start : Nat
  text : String
  deriving DecidableEq, Repr

/-- The byte of the line just past the token. -/
def Token.stop (t : Token) : Nat :=
  t.start + t.text.utf8ByteSize

/-- The kind of a whole word: six words are told apart, the others are identifiers. -/
def Token.Kind.ofWord (word : List Char) : Token.Kind :=
  if word = "import".toList then .importWord
  else if word = "from".toList then .fromWord
  else if word = "as".toList then .asWord
  else if word = "class".toList then .classWord
  else if word = "def".toList then .defWord
  else if word = "async".toList then .asyncWord
  else .ident

/-- The reserved words of Python. -/
def keywords : List String :=
  ["False", "None", "True", "and", "as", "assert", "async", "await", "break", "class", "continue",
   "def", "del", "elif", "else", "except", "finally", "for", "from", "global", "if", "import", "in",
   "is", "lambda", "nonlocal", "not", "or", "pass", "raise", "return", "try", "while", "with",
   "yield"]

/-- Is the word reserved? -/
def isKeyword (word : String) : Bool :=
  keywords.contains word

end Amalgam
