import Amalgam.Script.Command

/-!
# Reading shell scripts

The state in which a script is read, and the ways of taking characters from it.  A backslash and a newline
together say nothing, except between single quotes.

Reading nests: a word may hold commands, and a command holds words.  The two kinds of readers therefore take
the readers for what is nested as a value of `Nested`; the knot is tied where whole scripts are read.
-/

namespace Amalgam.Script

/-- Why a script cannot be read, and in which line. -/
structure ReadFault where
  line : Nat
  text : String
  deriving DecidableEq, Repr

/-- A token of a script. -/
inductive Token where
  | word (parts : Word)
  /-- A word that has a meaning of its own where it stands. -/
  | keyword (spelling : String)
  | redirect (descriptor : Nat) (kind : RedirectKind) (stripTabs : Bool)
  | newline
  | semicolon
  | background
  | andIf
  | orIf
  | pipe
  | openParen
  | closeParen
  | endCase
  | endOfFile

def Token.name : Token → String
  | word _ => "word"
  | keyword spelling => "\"" ++ spelling ++ "\""
  | redirect _ _ _ => "redirection"
  | newline => "newline"
  | semicolon => "\";\""
  | background => "\"&\""
  | andIf => "\"&&\""
  | orIf => "\"||\""
  | pipe => "\"|\""
  | openParen => "\"(\""
  | closeParen => "\")\""
  | endCase => "\";;\""
  | endOfFile => "end of file"

/-- A text in the script that a command reads: its lines start after the next line end. -/
structure Document where
  index : Nat
  delimiter : Text
  stripTabs : Bool
  /-- Are parameters and commands in it replaced? -/
  expands : Bool

/-- What is still to be read of a script. -/
structure Source where
  rest : List Char
  line : Nat := 1
  /-- A token that was read and put back. -/
  pushed : Option Token := none
  /-- Documents whose text comes after the next line end. -/
  awaited : List Document := []
  /-- The documents read so far, by number. -/
  documents : List Word := []
  /-- Names that stand for texts where a command may start. -/
  shortcuts : List (Text × Text) := []
  /-- The shortcuts whose texts are being read, each with the length of what comes after its text. -/
  inUse : List (Text × Nat) := []

abbrev Reader := StateT Source (Except ReadFault)

def fail {α : Type} (text : String) : Reader α := do
  throw ⟨(← get).line, text⟩

/-- Stops at a token that cannot stand where it does. -/
def unexpected {α : Type} (token : Token) (wanted : Option Token) : Reader α :=
  match wanted with
  | some other => fail (token.name ++ " unexpected (expecting " ++ other.name ++ ")")
  | none => fail (token.name ++ " unexpected")

/-! ### Characters -/

/-- Without the joined line ends at the start, and how many there were. -/
def dropJoins : List Char → Nat × List Char
  | '\\' :: '\n' :: rest =>
    let (count, rest) := dropJoins rest
    (count + 1, rest)
  | rest => (0, rest)

def peekChar : Reader (Option Char) := do
  let s ← get
  let (joins, rest) := dropJoins s.rest
  set { s with rest, line := s.line + joins }
  return rest.head?

def dropChar : Reader Unit :=
  modify fun s =>
    match s.rest with
    | c :: rest => { s with rest, line := if c = '\n' then s.line + 1 else s.line }
    | [] => s

/-- Leaves the next character behind if it is `c`, and says whether it was. -/
def skipIf (c : Char) : Reader Bool := do
  if (← peekChar) = some c then
    dropChar
    return true
  else return false

/-- The characters at the start for which `ok` holds, which are left behind. -/
def takeRun (ok : Char → Bool) : Reader Text := do
  let s ← get
  set { s with rest := s.rest.dropWhile ok }
  return s.rest.takeWhile ok

/-- A bound on the number of characters that can still be read. -/
def supply : Reader Nat := do
  return (← get).rest.length + 1

/-- Reads another text with the same documents, and goes on afterwards where it was.  The lines of the text
are counted from `line` on. -/
def readAside {α : Type} (text : Text) (line : Nat) (body : Reader α) : Reader α := do
  let outer ← get
  set { outer with rest := text, line, pushed := none, awaited := [], inUse := [] }
  let result ← body
  modify fun inner => { outer with documents := inner.documents }
  return result

/-! ### What is nested -/

/-- Where parts of words stand, which decides how they end and what quotes mean. -/
inductive Ground where
  /-- Outside of everything: ends at blanks and operators. -/
  | bare
  | quotes
  /-- The word of a parameter in braces; `quoted` says that the braces are between quotes. -/
  | braces (quoted : Bool)
  | document
  | arithmetic
  deriving DecidableEq, Repr

def Ground.quoted : Ground → Bool
  | bare => false
  | braces quoted => quoted
  | quotes | document | arithmetic => true

/-- The kinds of lists of commands. -/
inductive ListKind where
  /-- The commands up to the end of a line. -/
  | line
  /-- One or more commands up to a word that closes the list. -/
  | body
  /-- Any number of commands up to a word that closes the list. -/
  | closed
  deriving DecidableEq, Repr

/-- Readers for what is nested. -/
structure Nested where
  list : ListKind → Reader (List Command)
  parts : Ground → Reader Word

end Amalgam.Script
