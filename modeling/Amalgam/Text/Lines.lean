import Amalgam.Text.Utf8

/-!
# Lines

A text is cut at a separator character into pieces that do not hold it; joining the pieces with the
separator gives the text back.  The lines of a source are the pieces between newlines, except that a
newline at the very end does not start another line.

## Main definitions

* `splitAt` — the pieces between occurrences of a character
* `joinWith` — pieces put together with a character between them
* `sourceLines` — the lines of a source text
* `outputLines` — the lines of a program's output, without a carriage return before the newline
* `lineBytes` — the bytes a numbered line occupies
-/

namespace Amalgam

/-- Puts a character in front of the first piece. -/
def prependFirst (c : Char) : List (List Char) → List (List Char)
  | [] => [[c]]
  | piece :: pieces => (c :: piece) :: pieces

/-- The pieces of a text between the occurrences of `sep`; there is one more piece than there are
occurrences. -/
def splitAt (sep : Char) (t : List Char) : List (List Char) :=
  t.foldr (fun c pieces => if c = sep then [] :: pieces else prependFirst c pieces) [[]]

/-- The pieces put together, with `sep` between neighbours. -/
def joinWith (sep : Char) : List (List Char) → List Char
  | [] => []
  | [piece] => piece
  | piece :: pieces => piece ++ sep :: joinWith sep pieces

/-- A list without its last element if that is empty. -/
def dropEmptyLast (pieces : List (List Char)) : List (List Char) :=
  if pieces.getLast? = some [] then pieces.dropLast else pieces

/-- The lines of a source text.  A final newline starts no further line, and the empty text has no
line. -/
def sourceLines (source : List Char) : List (List Char) :=
  dropEmptyLast (splitAt '\n' source)

/-- A line without one carriage return at its end. -/
def dropCarriageReturn (line : List Char) : List Char :=
  if line.getLast? = some '\r' then line.dropLast else line

/-- The lines of a program's output; a line may end in a carriage return and a newline. -/
def outputLines (output : List Char) : List (List Char) :=
  (sourceLines output).map dropCarriageReturn

/-- A line without the carriage returns at its end. -/
def dropCarriageReturns (line : List Char) : List Char :=
  (line.reverse.dropWhile (· == '\r')).reverse

/-- First and past-the-last byte of the line numbered `n`, counting from one, without the carriage
returns at its end.  Here a final newline does start a last, empty line. -/
def lineBytes (source : List Char) : Nat → Option (Nat × Nat)
  | 0 => none
  | n + 1 =>
    let lines := splitAt '\n' source
    lines[n]?.map fun line =>
      let start := (lines.take n).foldr (fun l width => byteWidth l + 1 + width) 0
      (start, start + byteWidth (dropCarriageReturns line))

end Amalgam
