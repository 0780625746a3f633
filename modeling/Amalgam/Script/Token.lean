import Amalgam.Script.Word

/-!
# Reading tokens

A script is cut into words, operators and line ends.  After a line end stand the texts of the documents that
the line asked for.
-/

namespace Amalgam.Script

/-! ### Documents -/

def endsJoined (line : Text) : Bool :=
  (line.reverse.takeWhile (· == '\\')).length % 2 == 1

/-- The lines of a document, and the lines after it.  `joined` says that the line before goes on. -/
def takeDocument (d : Document) (joined : Bool) : List Text → List Text × List Text
  | [] => ([], [])
  | line :: rest =>
    let shown := if d.stripTabs then line.dropWhile (· == '\t') else line
    if shown = d.delimiter ∧ joined = false then ([], rest)
    else
      let (lines, rest) := takeDocument d (d.expands && endsJoined line) rest
      (shown :: lines, rest)

def readDocument (nested : Nested) (d : Document) : Reader Unit := do
  let s ← get
  let lines := splitAt '\n' s.rest
  let (text, after) := takeDocument d false lines
  let body := text.flatMap asLine
  let body := if after.isEmpty && text.length = lines.length then body.dropLast else body
  let parts ← if d.expands then readAside body s.line (nested.parts .document) else pure [.plain body true]
  modify fun s' =>
    { s' with
      rest := joinWith '\n' after
      line := s.line + (lines.length - after.length)
      documents := s'.documents.set d.index parts }

/-- Reads the texts of all documents that the line before asked for. -/
def readDocuments (nested : Nested) : Reader Unit := do
  let awaited := (← get).awaited
  modify fun s => { s with awaited := [] }
  awaited.forM (readDocument nested)

/-! ### Tokens -/

/-- Without blanks and comments at the start, and the number of joined line ends among them. -/
def skipIdle : Bool → List Char → Nat × List Char
  | _, [] => (0, [])
  | true, c :: rest => if c = '\n' then (0, c :: rest) else skipIdle true rest
  | false, '\\' :: '\n' :: rest =>
    let (joins, rest) := skipIdle false rest
    (joins + 1, rest)
  | false, c :: rest =>
    if isGap c then skipIdle false rest
    else if c = '#' then skipIdle true rest
    else (0, c :: rest)

def readOperator (c : Char) (once twice : Token) : Reader Token := do
  if ← skipIf c then return twice else return once

/-- A redirection that starts with `c`, after that character. -/
def readRedirect (c : Char) (descriptor : Option Nat) : Reader Token := do
  if c = '>' then
    let d := descriptor.getD 1
    if ← skipIf '>' then return .redirect d .append false
    else if ← skipIf '|' then return .redirect d .overwrite false
    else if ← skipIf '&' then return .redirect d .duplicate false
    else return .redirect d .write false
  else
    let d := descriptor.getD 0
    if ← skipIf '<' then
      let stripTabs ← skipIf '-'
      let index := (← get).documents.length
      modify fun s => { s with documents := s.documents ++ [[]] }
      return .redirect d (.document index) stripTabs
    else if ← skipIf '&' then return .redirect d .duplicate false
    else if ← skipIf '>' then return .redirect d .readWrite false
    else return .redirect d .read false

def descriptorOf? : Word → Option (Option Nat)
  | [] => some none
  | [.plain [c] false] => if c.isDigit then some (some (c.toNat - 48)) else none
  | _ => none

/-- A word, or a redirection whose descriptor looks like one. -/
def readWordToken (nested : Nested) : Reader Token := do
  let parts ← nested.parts .bare
  match ← peekChar, descriptorOf? parts with
  | some c, some descriptor =>
    if c = '<' ∨ c = '>' then
      dropChar
      readRedirect c descriptor
    else return .word parts
  | _, _ => return .word parts

def nextToken (nested : Nested) : Reader Token := do
  let s ← get
  match s.pushed with
  | some token =>
    set { s with pushed := none }
    return token
  | none =>
    let (joins, rest) := skipIdle false s.rest
    set { s with rest, line := s.line + joins }
    match rest with
    | [] => return .endOfFile
    | c :: _ =>
      match c with
      | '\n' =>
        dropChar
        readDocuments nested
        return .newline
      | '&' => dropChar; readOperator '&' .background .andIf
      | '|' => dropChar; readOperator '|' .pipe .orIf
      | ';' => dropChar; readOperator ';' .semicolon .endCase
      | '(' => dropChar; return .openParen
      | ')' => dropChar; return .closeParen
      | _ => readWordToken nested

def pushToken (token : Token) : Reader Unit :=
  modify fun s => { s with pushed := some token }

def keywords : List String :=
  ["!", "case", "do", "done", "elif", "else", "esac", "fi", "for", "if", "in", "then", "until", "while",
   "\x7b", "\x7d"]

def Token.asKeyword : Token → Token
  | word parts =>
    match bareText? parts with
    | some text =>
      let spelling := String.ofList text
      if keywords.contains spelling then .keyword spelling else .word parts
    | none => .word parts
  | other => other

def skipNewlines (nested : Nested) : Nat → Reader Token
  | 0 => nextToken nested
  | fuel + 1 => do
    match ← nextToken nested with
    | .newline => skipNewlines nested fuel
    | token => return token

/-- The next token.  `newlines` says that line ends are passed over, and `reserved` that keywords count. -/
def readToken (nested : Nested) (newlines reserved : Bool) : Reader Token := do
  let token ← if newlines then skipNewlines nested (← supply) else nextToken nested
  return if reserved then token.asKeyword else token

/-! ### Shortcuts -/

/-- Does the text of a shortcut end in a blank, so that the word after it may be a shortcut as well? -/
def endsBlank (text : Text) : Bool :=
  (text.getLast?.map isGap).getD false

/-- Does the next word come right after the text of a shortcut that ends in a blank? -/
def followsBlank (s : Source) : Bool :=
  s.pushed.isNone && s.inUse.any fun (name, left) =>
    left < s.rest.length && (skipIdle false s.rest).2.length ≤ left &&
      endsBlank ((s.shortcuts.lookup name).getD [])

/-- The text of the shortcut that a token is, unless that text is being read. -/
def shortcut? (s : Source) (token : Token) : Option (Text × Text) :=
  match token with
  | .word parts =>
    (bareText? parts).bind fun name =>
      let busy := s.inUse.any fun (used, left) => used = name ∧ left ≤ s.rest.length
      if busy then none else (s.shortcuts.lookup name).map fun text => (name, text)
  | _ => none

/-- The next token where a command may start: a shortcut is replaced by its text.  `pending` says that the
token was put back, and so has been looked at before. -/
def readStart (nested : Nested) (newlines reserved : Bool) : Nat → Reader Token
  | 0 => readToken nested newlines reserved
  | fuel + 1 => do
    let seen := (← get).pushed.isSome
    let token ← readToken nested newlines reserved
    if seen then return token
    let s ← get
    match shortcut? s token with
    | none => return token
    | some (name, text) =>
      set { s with
        rest := text ++ s.rest
        inUse := (name, s.rest.length) :: s.inUse.filter fun (_, left) => left ≤ s.rest.length }
      readStart nested newlines reserved fuel

def shortcutDepth : Nat := 1000

/-- The next token, which is looked up among the shortcuts if `starts` says so, or if it comes after the text
of a shortcut that ends in a blank. -/
def readWord (nested : Nested) (newlines reserved starts : Bool) : Reader Token := do
  if starts || followsBlank (← get) then readStart nested newlines reserved shortcutDepth
  else readToken nested newlines reserved

end Amalgam.Script
