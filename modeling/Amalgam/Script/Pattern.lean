import Amalgam.FileTree
import Amalgam.Script.Text

/-!
# Patterns

In a pattern a star stands for any text, a question mark for one character, and brackets for one of several
characters; a character that was quoted stands for itself, and so does one after a backslash.
-/

namespace Amalgam.Script

/-- A character of a pattern.  An `active` one may have a meaning of its own. -/
structure Mark where
  char : Char
  active : Bool
  deriving DecidableEq, Repr

/-- The characters of a text, none of which has a meaning of its own. -/
def literal (t : Text) : List Mark :=
  t.map fun c => ⟨c, false⟩

def markText (marks : List Mark) : Text :=
  marks.map Mark.char

/-- Is the mark the given character with its own meaning? -/
def Mark.isActive (m : Mark) (c : Char) : Bool :=
  m.active && m.char == c

def isMarked (c : Char) : Bool :=
  "!*?[=~:/-]\\".toList.contains c || (0x81 ≤ c.toNat && c.toNat ≤ 0x88)

/-- Marks in which no backslash stands before a quoted character that is marked.  The mark is a backslash as well,
so that such a pair is a plain backslash, and the character has its meaning again.  `held` says that a backslash
was read and is not yet written. -/
def settledFrom (held : Bool) : List Mark → List Mark
  | [] => if held then [⟨'\\', true⟩] else []
  | m :: rest =>
    if !held then
      if m.isActive '\\' then settledFrom true rest else m :: settledFrom false rest
    else if m.active || !isMarked m.char then ⟨'\\', true⟩ :: m :: settledFrom false rest
    else if m.char == '\\' then ⟨'\\', false⟩ :: settledFrom true rest
    else ⟨'\\', false⟩ :: ⟨m.char, true⟩ :: settledFrom false rest

/-- Marks in which no backslash stands before a quoted character that is marked. -/
def settled (marks : List Mark) : List Mark :=
  settledFrom false marks

/-! ### Brackets -/

def inClass (name : String) (c : Char) : Bool :=
  match name with
  | "alpha" => c.isAlpha
  | "digit" => c.isDigit
  | "alnum" => c.isAlphanum
  | "upper" => c.isUpper
  | "lower" => c.isLower
  | "space" => isSpace c
  | "blank" => isGap c
  | "punct" => 33 ≤ c.toNat && c.toNat < 127 && !c.isAlphanum
  | "print" => 32 ≤ c.toNat && c.toNat < 127
  | "graph" => 33 ≤ c.toNat && c.toNat < 127
  | "cntrl" => c.toNat < 32 || c.toNat == 127
  | "xdigit" => c.isDigit || ('a' ≤ c && c ≤ 'f') || ('A' ≤ c && c ≤ 'F')
  | _ => false

/-- The name of a class at the start, after its opening bracket and colon, and what follows it. -/
def className? (marks : List Mark) : Option (String × List Mark) :=
  let name := marks.takeWhile fun m => m.char.isAlpha
  match marks.dropWhile fun m => m.char.isAlpha with
  | c :: d :: rest =>
    if c.char = ':' ∧ d.char = ']' then some (String.ofList (markText name), rest) else none
  | _ => none

/-- Is `c` one of the characters between brackets?  Gives the marks after the closing bracket as well, and
nothing if there is none.  `first` says that a closing bracket would be the first character. -/
def bracket (c : Char) : Nat → Bool → Bool → List Mark → Option (Bool × List Mark)
  | 0, _, _, _ => none
  | _ + 1, _, _, [] => none
  | fuel + 1, first, found, m :: rest =>
    if m.isActive ']' && !first then some (found, rest)
    else
      let named := match rest with
        | colon :: later => if m.isActive '[' && colon.char == ':' then className? later else none
        | [] => none
      match named with
      | some (name, rest) => bracket c fuel false (found || inClass name c) rest
      | none =>
        let (low, rest) := match rest with
          | next :: later => if m.isActive '\\' then (next.char, later) else (m.char, rest)
          | [] => (m.char, rest)
        match rest with
        | dash :: high :: later =>
          if dash.isActive '-' && !high.isActive ']' then
            bracket c fuel false (found || (low ≤ c && c ≤ high.char)) later
          else bracket c fuel false (found || low == c) rest
        | _ => bracket c fuel false (found || low == c) rest

/-- Does the character fit the bracket that starts here?  Gives the marks after it as well. -/
def bracketFits (c : Char) (marks : List Mark) : Option (Bool × List Mark) :=
  match marks with
  | bang :: rest =>
    if bang.isActive '!' then
      (bracket c (rest.length + 1) true false rest).map fun (found, rest) => (!found, rest)
    else bracket c (marks.length + 1) true false marks
  | [] => none

/-! ### Fitting -/

/-- Does a text fit a pattern?  `fuel` bounds the length of the pattern. -/
def fitsFrom : Nat → List Mark → List Char → Bool
  | 0, _, _ => false
  | _ + 1, [], cs => cs.isEmpty
  | fuel + 1, m :: rest, cs =>
    if m.isActive '*' then
      (List.range (cs.length + 1)).any fun n => fitsFrom fuel rest (cs.drop n)
    else
      match cs with
      | [] => false
      | c :: later =>
        if m.isActive '?' then fitsFrom fuel rest later
        else if m.isActive '\\' then
          match rest with
          | next :: rest => next.char == c && fitsFrom fuel rest later
          | [] => c == '\\' && later.isEmpty
        else if m.isActive '[' then
          match bracketFits c rest with
          | some (found, rest) => found && fitsFrom fuel rest later
          | none => c == '[' && fitsFrom fuel rest later
        else m.char == c && fitsFrom fuel rest later

def fits (pattern : List Mark) (t : Text) : Bool :=
  fitsFrom (pattern.length + 1) (settled pattern) t

def shortestStart (pattern : List Mark) (t : Text) : Text :=
  match (List.range (t.length + 1)).find? fun n => fits pattern (t.take n) with
  | some n => t.drop n
  | none => t

/-! ### Names of files -/

def textLe : Text → Text → Bool
  | [], _ => true
  | _ :: _, [] => false
  | c :: cs, d :: ds => c < d || (c == d && textLe cs ds)

/-- Is a bracket closed?  The marks follow its first character, which may be anything; `skip` says that the next
one stands after a backslash. -/
def closesBracket (skip : Bool) : List Mark → Bool
  | [] => false
  | m :: rest =>
    if skip then closesBracket false rest
    else m.isActive ']' || closesBracket (m.isActive '\\') rest

def isBracket (marks : List Mark) : Bool :=
  let members := match marks with
    | bang :: later => if bang.isActive '!' then later else marks
    | [] => []
  match members with
  | first :: later => closesBracket (first.isActive '\\') later
  | [] => false

/-- Do the marks have a meaning as a pattern?  A character after a backslash has none; `skip` says that the
first one stands there. -/
def hasMeaning (skip : Bool) : List Mark → Bool
  | [] => false
  | m :: rest =>
    if skip then hasMeaning false rest
    else
      m.isActive '*' || m.isActive '?' || (m.isActive '[' && isBracket rest) ||
        hasMeaning (m.isActive '\\') rest

def isPattern (marks : List Mark) : Bool :=
  hasMeaning false marks

/-- The text that marks stand for where they are no pattern: a backslash quotes the next character. -/
def unescape : List Mark → Text
  | [] => []
  | [m] => [m.char]
  | m :: next :: rest =>
    if m.isActive '\\' then next.char :: unescape rest else m.char :: unescape (next :: rest)

/-- The names in a directory that fit a pattern; a name with a dot in front only fits a pattern with
one. -/
def namesFitting (tree : FileTree) (dir : Text) (pattern : List Mark) : List Text :=
  let path := if dir.isEmpty then ['.'] else dir
  if !tree.isDir (toPath path) then []
  else
    let hidden := (unescape pattern).head? == some '.'
    let names := (tree.names (toPath path)).map ofString
    let names := if hidden then ['.'] :: ['.', '.'] :: names else names
    names.filter fun name => fits pattern name && (hidden || name.head? != some '.')

def isThere (tree : FileTree) (path : Text) : Bool :=
  match tree.spot .stay (toPath path) with
  | .ok (.found _) => true
  | _ => false

/-- The paths that fit the rest of a pattern below a path, which has been found so far.  Each step of the
pattern is cut at its slashes. -/
def pathsFitting (tree : FileTree) (base : Text) : List (List Mark) → List Text
  | [] => [base]
  | [step] =>
    if isPattern step then (namesFitting tree base step).map (base ++ ·)
    else
      let path := base ++ unescape step
      if isThere tree path then [path] else []
  | step :: rest =>
    if isPattern step then
      (namesFitting tree base step).flatMap fun name =>
        let path := base ++ name
        if tree.isDir (toPath path) then pathsFitting tree (path ++ ['/']) rest else []
    else pathsFitting tree (base ++ unescape step ++ ['/']) rest

def prependMark (m : Mark) : List (List Mark) → List (List Mark)
  | piece :: rest => (m :: piece) :: rest
  | [] => [[m]]

/-- The pieces of marks between slashes; a backslash before a slash vanishes. -/
def splitMarks : List Mark → List (List Mark)
  | [] => [[]]
  | [m] => if m.char == '/' then [[], []] else [[m]]
  | m :: n :: rest =>
    if m.char == '/' then [] :: splitMarks (n :: rest)
    else if m.isActive '\\' then
      if n.char == '/' then [] :: splitMarks rest else prependMark m (prependMark n (splitMarks rest))
    else prependMark m (splitMarks (n :: rest))

/-- The names of files that fit a pattern, in order, or else the text of the pattern itself. -/
def expandNames (tree : FileTree) (marks : List Mark) : List Text :=
  let steps := splitMarks (settled marks)
  if steps.any isPattern then
    match pathsFitting tree [] steps with
    | [] => [markText marks]
    | paths => paths.mergeSort textLe
  else [markText marks]

end Amalgam.Script
