import Amalgam.Text.Utf8
import Amalgam.Token

/-!
# Lexed lines

A line of source is cut into **lexemes** whose texts, put together, are the line again.  Two views of
the lexemes are used later: the **tokens**, each with the byte at which it starts, and the **segments**,
maximal stretches of program text (`code`) between pieces of `literal` text.  Since a segment carries
its own text, "the segments partition the line" is a statement about concatenation and no offset can
fall inside a character.

The fields of a formatted string are program text: `pieces` cuts the string into literal text up to
and including an opening brace, the field, and the literal text from the closing brace on.

## Main definitions

* `Quote` — the two quote characters
* `Lexeme` — blank, token, literal, formatted string, or a triple-quoted string left open
* `Segment`, `Segment.Kind`, `Lexeme.pieces`, `segmentsOf`
* `tokensOf` — the tokens with their offsets
* `LexedLine` — tokens, segments, and whether the line starts inside a string
-/

namespace Amalgam

/-- The two characters that delimit strings. -/
inductive Quote where
  | single
  | double
  deriving DecidableEq, Repr

namespace Quote

/-- The quote character itself. -/
def char : Quote → Char
  | single => '\''
  | double => '"'

/-- The quote a character is. -/
def ofChar? (c : Char) : Option Quote :=
  if c = '\'' then some single else if c = '"' then some double else none

end Quote

/-! ### Segments -/

/-- Program text, or the text of a string or comment. -/
inductive Segment.Kind where
  | code
  | literal
  deriving DecidableEq, Repr

/-- A stretch of a line. -/
structure Segment where
  kind : Segment.Kind
  text : List Char
  deriving DecidableEq, Repr

namespace Segment

/-- The text of a list of segments. -/
def textOf (segments : List Segment) : List Char :=
  segments.flatMap Segment.text

/-- Puts a character in front of the first segment. -/
def attach (c : Char) : List Segment → List Segment
  | [] => []
  | s :: rest => { s with text := c :: s.text } :: rest

/-- Puts a stretch in front of segments: an empty one vanishes, and code joins the code it meets. -/
def push (s : Segment) (rest : List Segment) : List Segment :=
  if s.text = [] then rest
  else
    match s.kind, rest with
    | .code, ⟨.code, text⟩ :: later => ⟨.code, s.text ++ text⟩ :: later
    | _, _ => s :: rest

end Segment

/-! ### Formatted strings -/

/-- The pieces of the rest of a formatted string's body.  `field` is `none` in literal text and
`some d` inside a field, `d` braces deeper than its own; `closing` is what follows the body.  A doubled
opening brace and a backslash with the character after it are literal text.  A field that is not closed
reaches to the end of the body. -/
def fieldPieces (closing : List Char) : Option Nat → List Char → List Segment
  | none, [] => [⟨.literal, closing⟩]
  | none, '\\' :: c :: cs => Segment.attach '\\' (Segment.attach c (fieldPieces closing none cs))
  | none, '{' :: '{' :: cs => Segment.attach '{' (Segment.attach '{' (fieldPieces closing none cs))
  | none, '{' :: cs => ⟨.literal, ['{']⟩ :: fieldPieces closing (some 0) cs
  | none, c :: cs => Segment.attach c (fieldPieces closing none cs)
  | some _, [] => [⟨.code, []⟩, ⟨.literal, closing⟩]
  | some 0, '}' :: cs => ⟨.code, []⟩ :: Segment.attach '}' (fieldPieces closing none cs)
  | some (d + 1), '}' :: cs => Segment.attach '}' (fieldPieces closing (some d) cs)
  | some d, '{' :: cs => Segment.attach '{' (fieldPieces closing (some (d + 1)) cs)
  | some d, c :: cs => Segment.attach c (fieldPieces closing (some d) cs)

/-! ### Lexemes -/

/-- A piece of a line as the lexer sees it. -/
inductive Lexeme where
  /-- Space, tab, carriage return or form feed. -/
  | blank (text : List Char)
  | token (kind : Token.Kind) (text : List Char)
  /-- A comment, or a string that is closed on this line. -/
  | literal (text : List Char)
  /-- A formatted string on one line: its letters and quote, its body, its closing quote. -/
  | formatted (opening body closing : List Char)
  /-- The rest of the line belongs to a triple-quoted string that stays open. -/
  | unclosed (quote : Quote) (text : List Char)
  deriving DecidableEq, Repr

namespace Lexeme

/-- The text of a lexeme. -/
def text : Lexeme → List Char
  | blank text => text
  | token _ text => text
  | literal text => text
  | formatted opening body closing => opening ++ body ++ closing
  | unclosed _ text => text

/-- The code and literal pieces of a lexeme; some may be empty. -/
def pieces : Lexeme → List Segment
  | blank text => [⟨.code, text⟩]
  | token _ text => [⟨.code, text⟩]
  | literal text => [⟨.literal, text⟩]
  | formatted opening body closing => opening.foldr Segment.attach (fieldPieces closing none body)
  | unclosed _ text => [⟨.literal, text⟩]

end Lexeme

/-- The segments of a line: the pieces of its lexemes, empty ones dropped and code joined to code. -/
def segmentsOf (lexemes : List Lexeme) : List Segment :=
  (lexemes.flatMap Lexeme.pieces).foldr Segment.push []

/-- The tokens among lexemes that start at byte `start`. -/
def tokensFrom (start : Nat) : List Lexeme → List Token
  | [] => []
  | .token kind text :: rest =>
    ⟨kind, start, String.ofList text⟩ :: tokensFrom (start + byteWidth text) rest
  | lexeme :: rest => tokensFrom (start + byteWidth lexeme.text) rest

/-- The tokens of a line. -/
def tokensOf (lexemes : List Lexeme) : List Token :=
  tokensFrom 0 lexemes

/-- The string that lexemes leave open for the next line. -/
def openString (lexemes : List Lexeme) : Option Quote :=
  match lexemes.getLast? with
  | some (.unclosed quote _) => some quote
  | _ => none

/-- One line as the later stages see it. -/
structure LexedLine where
  tokens : List Token
  segments : List Segment
  /-- The line begins inside a triple-quoted string. -/
  startsInString : Bool
  deriving DecidableEq, Repr

namespace LexedLine

/-- The whole text of the line. -/
def text (line : LexedLine) : List Char :=
  Segment.textOf line.segments

/-- The program text of the line, strings and comments left out. -/
def codeText (line : LexedLine) : List Char :=
  (line.segments.filter (·.kind = .code)).flatMap Segment.text

/-- The kind of the first token. -/
def first? (line : LexedLine) : Option Token.Kind :=
  line.tokens.head?.map Token.kind

/-- Does the first token stand in the first column? -/
def startsAtMargin (line : LexedLine) : Bool :=
  match line.tokens with
  | [] => false
  | t :: _ => t.start == 0

end LexedLine

end Amalgam
