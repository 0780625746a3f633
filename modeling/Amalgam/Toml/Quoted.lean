/-!
# Quoted texts of TOML

Four kinds of quoted text: basic and literal, each on one line or over several.  Basic texts have escapes.
Over several lines, three quotes end the text, and up to two more quotes directly before them still belong
to it; a newline right after the opening quotes does not; and in a basic text a backslash at the end of a
line removes the line break with the blanks and line breaks after it.  A line break is read as a newline.

Each reader takes the text after the opening quotes and returns the content and what follows the closing
quotes.

## Main definitions

* `readBasic`, `readLiteral` — texts on one line
* `readBasicLines`, `readLiteralLines` — texts over several lines
* `readQuoted` — any of the four
-/

namespace Amalgam.Toml

/-- A blank of TOML. -/
def isTomlBlank (c : Char) : Bool :=
  c == ' ' || c == '\t'

/-- A character that may stand in a comment or, quotes and backslashes apart, in a quoted text: a tab, or
no control character. -/
def isPlainChar (c : Char) : Bool :=
  c == '\t' || (0x20 ≤ c.toNat && c.toNat != 0x7F)

/-- The value of a hexadecimal digit. -/
def hexDigit? (c : Char) : Option Nat :=
  if '0' ≤ c ∧ c ≤ '9' then some (c.toNat - 48)
  else if 'a' ≤ c ∧ c ≤ 'f' then some (c.toNat - 87)
  else if 'A' ≤ c ∧ c ≤ 'F' then some (c.toNat - 55)
  else none

/-- The character with a hexadecimal code point, if it is one. -/
def codePoint? (digits : List Char) : Option Char := do
  let n ← digits.foldlM (fun n c => (hexDigit? c).map (n * 16 + ·)) 0
  if n < 0xD800 ∨ (0xDFFF < n ∧ n < 0x110000) then some (Char.ofNat n) else none

/-- The character an escape of one letter stands for. -/
def escaped? (c : Char) : Option Char :=
  match c with
  | 'b' => some '\x08'
  | 't' => some '\t'
  | 'n' => some '\n'
  | 'f' => some '\x0c'
  | 'r' => some '\r'
  | '"' => some '"'
  | '\\' => some '\\'
  | _ => none

/-- Content that was read, and the rest. -/
abbrev Reading := Option (List Char × List Char)

/-- One more character in front of the content. -/
def Reading.cons (c : Char) (r : Reading) : Reading :=
  r.map fun (content, rest) => (c :: content, rest)

/-- A basic text on one line. -/
def readBasic : List Char → Reading
  | '"' :: rest => some ([], rest)
  | '\\' :: 'u' :: a :: b :: c :: d :: rest =>
    (codePoint? [a, b, c, d]).bind (Reading.cons · (readBasic rest))
  | '\\' :: 'U' :: a :: b :: c :: d :: e :: f :: g :: h :: rest =>
    (codePoint? [a, b, c, d, e, f, g, h]).bind (Reading.cons · (readBasic rest))
  | '\\' :: c :: rest => (escaped? c).bind (Reading.cons · (readBasic rest))
  | c :: rest => if isPlainChar c && c != '\\' then Reading.cons c (readBasic rest) else none
  | [] => none

/-- A literal text on one line. -/
def readLiteral : List Char → Reading
  | '\'' :: rest => some ([], rest)
  | c :: rest => if isPlainChar c then Reading.cons c (readLiteral rest) else none
  | [] => none

/-- Do the characters start with a line break? -/
def startsNewLine : List Char → Bool
  | '\n' :: _ => true
  | '\r' :: '\n' :: _ => true
  | _ => false

/-- A basic text over several lines.  With `joining`, blanks and line breaks are left out up to the next
other character. -/
def readBasicLines (joining : Bool) : List Char → Reading
  | '"' :: '"' :: '"' :: '"' :: '"' :: rest => some (['"', '"'], rest)
  | '"' :: '"' :: '"' :: '"' :: rest => some (['"'], rest)
  | '"' :: '"' :: '"' :: rest => some ([], rest)
  | '\\' :: 'u' :: a :: b :: c :: d :: rest =>
    (codePoint? [a, b, c, d]).bind (Reading.cons · (readBasicLines false rest))
  | '\\' :: 'U' :: a :: b :: c :: d :: e :: f :: g :: h :: rest =>
    (codePoint? [a, b, c, d, e, f, g, h]).bind (Reading.cons · (readBasicLines false rest))
  | '\\' :: '\n' :: rest => readBasicLines true rest
  | '\\' :: '\r' :: '\n' :: rest => readBasicLines true rest
  | '\\' :: c :: rest =>
    if isTomlBlank c then
      if startsNewLine (rest.dropWhile isTomlBlank) then readBasicLines true rest else none
    else (escaped? c).bind (Reading.cons · (readBasicLines false rest))
  | '\r' :: '\n' :: rest =>
    if joining then readBasicLines true rest else Reading.cons '\n' (readBasicLines false rest)
  | c :: rest =>
    if joining && (isTomlBlank c || c == '\n') then readBasicLines true rest
    else if (isPlainChar c && c != '\\') || c == '\n' then
      Reading.cons c (readBasicLines false rest)
    else none
  | [] => none

/-- A literal text over several lines. -/
def readLiteralLines : List Char → Reading
  | '\'' :: '\'' :: '\'' :: '\'' :: '\'' :: rest => some (['\'', '\''], rest)
  | '\'' :: '\'' :: '\'' :: '\'' :: rest => some (['\''], rest)
  | '\'' :: '\'' :: '\'' :: rest => some ([], rest)
  | '\r' :: '\n' :: rest => Reading.cons '\n' (readLiteralLines rest)
  | c :: rest =>
    if isPlainChar c || c == '\n' then Reading.cons c (readLiteralLines rest) else none
  | [] => none

/-- The characters without a line break at their start. -/
def dropNewLine : List Char → List Char
  | '\n' :: rest => rest
  | '\r' :: '\n' :: rest => rest
  | rest => rest

/-- A quoted text of any kind, from its opening quotes on. -/
def readQuoted : List Char → Reading
  | '"' :: '"' :: '"' :: rest => readBasicLines false (dropNewLine rest)
  | '"' :: rest => readBasic rest
  | '\'' :: '\'' :: '\'' :: rest => readLiteralLines (dropNewLine rest)
  | '\'' :: rest => readLiteral rest
  | _ => none

end Amalgam.Toml
