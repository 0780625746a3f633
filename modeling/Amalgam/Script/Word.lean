import Amalgam.Script.Source

/-!
# Reading words

The parts of a word, up to where it ends.  After a dollar sign stands a parameter, a command whose output is
meant, or an arithmetic expression; a command may also stand between backquotes.
-/

namespace Amalgam.Script

/-- The character around commands whose output is meant. -/
def backquote : Char := '\x60'

/-- A parameter that is named by one character that is no letter. -/
def isSpecial (c : Char) : Bool :=
  "#?$!-*@".toList.contains c || c.isDigit

/-! ### Parameters -/

def readBracedName : Reader (Option Text) := do
  match ← peekChar with
  | some c =>
    if isNameStart c then return some (← takeRun isNameChar)
    else if c.isDigit then return some (← takeRun Char.isDigit)
    else if isSpecial c then
      dropChar
      return some [c]
    else return none
  | none => return none

/-- Do the characters ask for the length of a parameter?  They stand after a `#`, which may also be the
parameter itself. -/
def asksLength : List Char → Bool
  | [] => false
  | [c] => isNameChar c
  | c :: d :: _ => isNameChar c || (isSpecial c && d == '}')

/-- What is made of a parameter between braces, and whether a word follows that is quoted or not. -/
def readUse (quoted : Bool) : Reader (Use × Option Bool) := do
  let orEmpty ← skipIf ':'
  match ← peekChar with
  | some '-' => dropChar; return (.orElse orEmpty, some quoted)
  | some '+' => dropChar; return (.instead orEmpty, some quoted)
  | some '?' => dropChar; return (.require orEmpty, some quoted)
  | some '=' => dropChar; return (.assign orEmpty, some quoted)
  | some '}' =>
    dropChar
    return (.value, if orEmpty then some quoted else none)
  | some c =>
    if c = '%' ∧ !orEmpty then
      dropChar
      return (.dropEnd (← skipIf '%'), some false)
    if c = '#' ∧ !orEmpty then
      dropChar
      return (.dropStart (← skipIf '#'), some false)
    -- The line does not count, even if it ends here.
    modify fun s => { s with rest := s.rest.drop 1 }
    return (.malformed, some quoted)
  | none => return (.malformed, some quoted)

def readParameter (nested : Nested) (quoted : Bool) : Reader Part := do
  let counts := match (← get).rest with
    | '#' :: rest => asksLength rest
    | _ => false
  if counts then
    dropChar
    let name := (← readBracedName).getD []
    if ← skipIf '}' then return .parameter name .length [] quoted
    let word ← nested.parts (.braces quoted)
    return .parameter name .malformed word quoted
  match ← readBracedName with
  | none =>
    let word ← nested.parts (.braces quoted)
    return .parameter [] .malformed word quoted
  | some name =>
    match ← readUse quoted with
    | (use, none) => return .parameter name use [] quoted
    | (use, some wordQuoted) =>
      let word ← nested.parts (.braces wordQuoted)
      return .parameter name use word quoted

/-- The commands between parentheses, after the opening one. -/
def readSubstitution (nested : Nested) (quoted : Bool) : Reader Part := do
  let outer ← get
  set { outer with pushed := none, awaited := [] }
  let commands ← nested.list .closed
  match (← get).pushed with
  | some .closeParen =>
    modify fun s => { s with pushed := outer.pushed, awaited := outer.awaited }
    return .output (.series commands) quoted
  | some token => unexpected token (some .closeParen)
  | none => unexpected .endOfFile (some .closeParen)

def readDollar (nested : Nested) (quoted : Bool) : Reader Part := do
  match ← peekChar with
  | some '(' =>
    dropChar
    if ← skipIf '(' then return .arithmetic (← nested.parts .arithmetic) quoted
    readSubstitution nested quoted
  | some '{' =>
    dropChar
    readParameter nested quoted
  | some c =>
    if isNameStart c then return .parameter (← takeRun isNameChar) .value [] quoted
    else if isSpecial c then
      dropChar
      return .parameter [c] .value [] quoted
    else return .plain ['$'] quoted
  | none => return .plain ['$'] quoted

/-! ### Backquotes -/

/-- The text between backquotes, after the first of them, and what follows the last; a backslash is left
out where it stands before a character that it would quote.  `none` if there is no last one. -/
def backquoted (quoted : Bool) : List Char → Option (Text × List Char)
  | [] => none
  | '\\' :: '\n' :: rest => backquoted quoted rest
  | '\\' :: d :: rest =>
    let kept := if d == '\\' || d == backquote || d == '$' || (quoted && d == '"') then [d] else ['\\', d]
    (backquoted quoted rest).map fun (text, rest) => (kept ++ text, rest)
  | c :: rest =>
    if c = backquote then some ([], rest)
    else (backquoted quoted rest).map fun (text, rest) => (c :: text, rest)

def readBackquoted (nested : Nested) (quoted : Bool) : Reader Part := do
  let s ← get
  match backquoted quoted s.rest with
  | none =>
    set { s with rest := [], line := s.line + s.rest.count '\n' }
    fail "EOF in backquote substitution"
  | some (text, rest) =>
    set { s with rest, line := s.line + text.count '\n' }
    let commands ← readAside text 1 (nested.list .closed)
    return .output (.series commands) quoted

/-! ### Parts -/

/-- A word with one more part; plain parts that are alike become one. -/
def addPart (parts : Word) (part : Part) : Word :=
  match parts, part with
  | .plain before q :: rest, .plain text quoted =>
    if q == quoted then .plain (before ++ text) q :: rest else part :: parts
  | _, _ => part :: parts

def endsWord (c : Char) : Bool :=
  " \t\n;&|<>()".toList.contains c

/-- Is the backslash kept before a character that stands where characters are quoted? -/
def keepsBackslash (ground : Ground) (d : Char) : Bool :=
  !(d == '\\' || d == backquote || d == '$' || (d == '"' && ground != .document) ||
    (d == '}' && ground == .braces true))

def readSingleQuoted : Reader Part := do
  let s ← get
  match s.rest.dropWhile (· != '\'') with
  | [] =>
    modify fun s => { s with line := s.line + s.rest.count '\n', rest := [] }
    fail "Unterminated quoted string"
  | _ :: rest =>
    let text := s.rest.takeWhile (· != '\'')
    set { s with rest, line := s.line + text.count '\n' }
    return .plain text true

def readEnd (ground : Ground) (parts : Word) : Reader Word :=
  match ground with
  | .bare | .document => return parts.reverse
  | .quotes | .braces true => fail "Unterminated quoted string"
  | .braces false => fail "Missing '\x7d'"
  | .arithmetic => fail "Missing '))'"

def Part.isPlain : Part → Bool
  | .plain _ _ => true
  | _ => false

/-- Parts that stand between quotes.  There is a word there even if they come to nothing, unless they are just
all arguments, which are as many words as there are arguments. -/
def quotedParts (inner : Word) : Word :=
  match inner with
  | [] => [.plain [] true]
  | [.parameter ['@'] .value _ _] => inner
  | _ => if inner.all Part.isPlain then inner else inner ++ [.plain [] true]

/-- The parts of a word, after the parts read so far, the last first.  `depth` counts parentheses that are
open in an arithmetic expression, and `fuel` bounds the number of steps. -/
def partsFrom (nested : Nested) (ground : Ground) : Nat → Nat → Word → Reader Word
  | 0, _, parts => return parts.reverse
  | fuel + 1, depth, parts => do
    let quoted := ground.quoted
    match ← peekChar with
    | none => readEnd ground parts
    | some c =>
      if ground = .bare ∧ endsWord c then return parts.reverse
      dropChar
      if c = '\\' then
        match (← get).rest with
        | [] => partsFrom nested ground fuel depth (addPart parts (.plain ['\\'] true))
        | d :: _ =>
          dropChar
          let text := if quoted && keepsBackslash ground d then ['\\', d] else [d]
          partsFrom nested ground fuel depth (addPart parts (.plain text true))
      else if c = '$' then
        let part ← readDollar nested quoted
        partsFrom nested ground fuel depth (addPart parts part)
      else if c = backquote then
        let part ← readBackquoted nested quoted
        partsFrom nested ground fuel depth (addPart parts part)
      else if c = '\'' ∧ !quoted then
        let part ← readSingleQuoted
        partsFrom nested ground fuel depth (addPart parts part)
      else if c = '"' ∧ ground = .quotes then return parts.reverse
      else if c = '"' ∧ ground ≠ .document ∧ ground ≠ .arithmetic then
        let inner ← nested.parts .quotes
        partsFrom nested ground fuel depth ((quotedParts inner).foldl addPart parts)
      else if c = '}' ∧ (ground = .braces true ∨ ground = .braces false) then return parts.reverse
      else if ground = .arithmetic ∧ c = '(' then
        partsFrom nested ground fuel (depth + 1) (addPart parts (.plain [c] quoted))
      else if ground = .arithmetic ∧ c = ')' ∧ depth = 0 then
        if ← skipIf ')' then return parts.reverse
        partsFrom nested ground fuel depth (addPart parts (.plain [c] quoted))
      else
        let depth := if ground = .arithmetic ∧ c = ')' then depth - 1 else depth
        partsFrom nested ground fuel depth (addPart parts (.plain [c] quoted))

def readParts (nested : Nested) (ground : Ground) : Reader Word := do
  partsFrom nested ground (← supply) 0 []

end Amalgam.Script
