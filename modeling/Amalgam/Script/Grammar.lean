import Amalgam.Script.Token

/-!
# Reading commands

    list      ::=  andOr ((; or & or newline) andOr)*
    andOr     ::=  pipeline ((&& or ||) pipeline)*
    pipeline  ::=  [!] command (| command)*
    command   ::=  (assignment or word or redirect)+
                |  name ( ) command
                |  compound redirect*
    compound  ::=  { list }  |  ( list )
                |  if list then list (elif list then list)* [else list] fi
                |  (while or until) list do list done
                |  for name [in word*] do list done
                |  case word in ([(] word (| word)* ) list ;;)* esac

A script is read line by line, and each line is run before the next one is read.
-/

namespace Amalgam.Script

/-! ### Simple commands -/

def readTarget (nested : Nested) (descriptor : Nat) (kind : RedirectKind) (stripTabs : Bool) :
    Reader Redirect := do
  match ← readToken nested false false with
  | .word parts =>
    match kind with
    | .document index =>
      let text := parts.flatMap fun
        | .plain text _ => text
        | _ => []
      let expands := (bareText? parts).isSome
      modify fun s => { s with awaited := s.awaited ++ [⟨index, text, stripTabs, expands⟩] }
      return .to descriptor kind []
    | _ => return .to descriptor kind parts
  | token => unexpected token none

/-- An assignment that a word is: the name, and the word of its value. -/
def assignment? : Word → Option (Text × Word)
  | .plain text false :: rest =>
    match text.dropWhile isNameChar with
    | '=' :: value =>
      let name := text.takeWhile isNameChar
      if isName name then some (name, if value.isEmpty then rest else .plain value false :: rest) else none
    | _ => none
  | _ => none

/-- A simple command as far as it is read. -/
structure SimpleParts where
  line : Nat
  assignments : List (Text × Word) := []
  words : List Word := []
  redirects : List Redirect := []

def SimpleParts.command (p : SimpleParts) : Command :=
  .simple p.line p.assignments p.words p.redirects

def specialCommands : List String :=
  [".", ":", "break", "continue", "eval", "exec", "exit", "export", "local", "readonly", "return", "set",
   "shift", "times", "trap", "unset"]

def isFunctionName (name : Text) : Bool :=
  isName name && !specialCommands.contains (String.ofList name)

/-- The rest of a simple command, or of the definition of a function, whose body `body` reads. -/
def simpleFrom (nested : Nested) (body : Reader Command) : Nat → SimpleParts → Reader Command
  | 0, p => return p.command
  | fuel + 1, p => do
    match ← readWord nested false false p.words.isEmpty with
    | .word parts =>
      match p.words.isEmpty, assignment? parts with
      | true, some assignment =>
        simpleFrom nested body fuel { p with assignments := p.assignments ++ [assignment] }
      | _, _ => simpleFrom nested body fuel { p with words := p.words ++ [parts] }
    | .redirect descriptor kind stripTabs =>
      let redirect ← readTarget nested descriptor kind stripTabs
      simpleFrom nested body fuel { p with redirects := p.redirects ++ [redirect] }
    | .openParen =>
      match p.words, p.assignments, p.redirects with
      | [word], [], [] =>
        match ← readToken nested false false with
        | .closeParen =>
          match bareText? word with
          | some name =>
            if isFunctionName name then return .define name (← body) else fail "Bad function name"
          | none => fail "Bad function name"
        | token => unexpected token (some .closeParen)
      | _, _, _ =>
        pushToken .openParen
        return p.command
    | token =>
      pushToken token
      return p.command

/-! ### Compound commands -/

def expectToken (nested : Nested) (spelling : String) : Reader Unit := do
  match ← readWord nested false true true with
  | .keyword found =>
    if found = spelling then return () else unexpected (.keyword found) (some (.keyword spelling))
  | token => unexpected token (some (.keyword spelling))

/-- A list of one or more commands; a single one stands for itself. -/
def readBody (nested : Nested) : Reader Command := do
  match ← nested.list .body with
  | [command] => return command
  | commands => return .series commands

def loopWords (nested : Nested) : Nat → List Word → Reader (List Word)
  | 0, words => return words
  | fuel + 1, words => do
    match ← readWord nested false false false with
    | .word parts => loopWords nested fuel (words ++ [parts])
    | .newline | .semicolon => return words
    | token => unexpected token none

def readFor (nested : Nested) (line : Nat) : Reader Command := do
  let name ← match ← readToken nested false false with
    | .word parts =>
      match bareText? parts with
      | some name => if isName name then pure name else fail "Bad for loop variable"
      | none => fail "Bad for loop variable"
    | _ => fail "Bad for loop variable"
  let words ← match ← readWord nested true true true with
    | .keyword "in" => some <$> loopWords nested (← supply) []
    | .semicolon => pure none
    | token => do
      pushToken token
      pure none
  match ← readWord nested true true true with
  | .keyword "do" =>
    let body ← readBody nested
    expectToken nested "done"
    return .each line name words body
  | token => unexpected token (some (.keyword "do"))

def Token.pattern : Token → Word
  | word parts => parts
  | keyword spelling => [.plain spelling.toList false]
  | _ => []

def casePatterns (nested : Nested) : Nat → List Word → Reader (List Word)
  | 0, patterns => return patterns
  | fuel + 1, patterns => do
    match ← readToken nested false false with
    | .pipe =>
      let token ← readToken nested false false
      casePatterns nested fuel (patterns ++ [token.pattern])
    | .closeParen => return patterns
    | token => unexpected token (some .closeParen)

def readCases (nested : Nested) : Nat → List (List Word × Command) →
    Reader (List (List Word × Command))
  | 0, cases => return cases
  | fuel + 1, cases => do
    match ← readToken nested true true with
    | .keyword "esac" => return cases
    | token =>
      let first ← match token with
        | .openParen => readToken nested false false
        | token => pure token
      let patterns ← casePatterns nested (← supply) [first.pattern]
      let body ← nested.list .closed
      let cases := cases ++ [(patterns, .series body)]
      match ← readToken nested true true with
      | .keyword "esac" => return cases
      | .endCase => readCases nested fuel cases
      | token => unexpected token (some .endCase)

def readCase (nested : Nested) (line : Nat) : Reader Command := do
  match ← readToken nested false false with
  | .word subject =>
    match ← readWord nested true true true with
    | .keyword "in" => return .choose line subject (← readCases nested (← supply) [])
    | token => unexpected token (some (.keyword "in"))
  | token => unexpected token (some (.word []))

/-- A conditional, after its first word; `fuel` bounds the number of its branches. -/
def readIf (nested : Nested) : Nat → Reader Command
  | 0 => unexpected .endOfFile none
  | fuel + 1 => do
    let test ← readBody nested
    expectToken nested "then"
    let yes ← readBody nested
    match ← readWord nested false true true with
    | .keyword "elif" => return .branch test yes (some (← readIf nested fuel))
    | .keyword "else" =>
      let no ← readBody nested
      expectToken nested "fi"
      return .branch test yes (some no)
    | .keyword "fi" => return .branch test yes none
    | token => unexpected token (some (.keyword "fi"))

def readLoop (nested : Nested) (untilTrue : Bool) : Reader Command := do
  let test ← readBody nested
  expectToken nested "do"
  let body ← readBody nested
  expectToken nested "done"
  return .loop untilTrue test body

def trailingRedirects (nested : Nested) : Nat → List Redirect → Reader (List Redirect)
  | 0, redirects => return redirects
  | fuel + 1, redirects => do
    match ← readWord nested false true true with
    | .redirect descriptor kind stripTabs =>
      let redirect ← readTarget nested descriptor kind stripTabs
      trailingRedirects nested fuel (redirects ++ [redirect])
    | token =>
      pushToken token
      return redirects

/-- A compound command with its redirections.  Those of a shell of its own take the place of any that it has
already. -/
def withRedirects (nested : Nested) (line : Nat) (body : Command) : Reader Command := do
  match ← trailingRedirects nested (← supply) [] with
  | [] => return body
  | redirects =>
    match body with
    | .subshell line inner _ => return .subshell line inner redirects
    | _ => return .redirected line body redirects

/-! ### Commands -/

/-- A command whose first token is read as `newlines` and `reserved` say.  `fuel` bounds the number of
definitions around a command. -/
def readCommand (nested : Nested) (newlines reserved : Bool) : Nat → Reader Command
  | 0 => unexpected .endOfFile none
  | fuel + 1 => do
    let line := (← get).line
    let token ← readWord nested newlines reserved reserved
    match token with
    | .keyword "if" => withRedirects nested line (← readIf nested (← supply))
    | .keyword "while" => withRedirects nested line (← readLoop nested false)
    | .keyword "until" => withRedirects nested line (← readLoop nested true)
    | .keyword "for" => withRedirects nested line (← readFor nested line)
    | .keyword "case" => withRedirects nested line (← readCase nested line)
    | .openParen =>
      let body ← readBody nested
      match ← readToken nested false false with
      | .closeParen => withRedirects nested line (.subshell line body [])
      | token => unexpected token (some .closeParen)
    | .keyword "\x7b" =>
      let body ← readBody nested
      expectToken nested "\x7d"
      withRedirects nested line body
    | .word _ | .redirect _ _ _ =>
      pushToken token
      simpleFrom nested (readCommand nested true true fuel) (← supply) { line := (← get).line }
    | token => unexpected token none

def readOne (nested : Nested) (newlines reserved : Bool) : Reader Command := do
  readCommand nested newlines reserved (← supply)

def pipelineFrom (nested : Nested) : Nat → List Command → Reader (List Command)
  | 0, commands => return commands
  | fuel + 1, commands => do
    match ← readToken nested false false with
    | .pipe =>
      let command ← readOne nested true true
      pipelineFrom nested fuel (commands ++ [command])
    | token =>
      pushToken token
      return commands

def readPipeline (nested : Nested) (newlines reserved : Bool) : Reader Command := do
  let token ← readWord nested newlines reserved reserved
  let negated ← match token with
    | .keyword "!" => pure true
    | token => do
      pushToken token
      pure false
  let first ← readOne nested false negated
  let body ← match ← pipelineFrom nested (← supply) [first] with
    | [command] => pure command
    | commands => pure (.pipe commands)
  return if negated then .negate body else body

/-- The pipelines after the first that depend on those before. -/
def andOrFrom (nested : Nested) : Nat → Command → Reader Command
  | 0, first => return first
  | fuel + 1, first => do
    match ← readToken nested false false with
    | .andIf => andOrFrom nested fuel (.andThen first (← readPipeline nested true true))
    | .orIf => andOrFrom nested fuel (.orElse first (← readPipeline nested true true))
    | token =>
      pushToken token
      return first

def readAndOr (nested : Nested) : Reader Command := do
  andOrFrom nested (← supply) (← readPipeline nested false false)

def Token.endsList : Token → Bool
  | keyword spelling => ["do", "done", "elif", "else", "esac", "fi", "then", "\x7d"].contains spelling
  | closeParen | endCase | endOfFile => true
  | _ => false

def listFrom (nested : Nested) (kind : ListKind) : Nat → List Command → Reader (List Command)
  | 0, commands => return commands
  | fuel + 1, commands => do
    match ← readWord nested (kind != .line) true true with
    | .newline => return commands
    | .endOfFile =>
      pushToken .endOfFile
      return commands
    | token =>
      pushToken token
      if kind ≠ .line ∧ (kind = .closed ∨ commands ≠ []) ∧ token.endsList then return commands
      let command ← readAndOr nested
      match ← readToken nested false false with
      | .background => listFrom nested kind fuel (commands ++ [.background command])
      | .semicolon => listFrom nested kind fuel (commands ++ [command])
      | .newline =>
        pushToken .newline
        listFrom nested kind fuel (commands ++ [command])
      | .endOfFile =>
        pushToken .endOfFile
        return commands ++ [command]
      | token =>
        if kind = .line then unexpected token none
        pushToken token
        return commands ++ [command]

def readList (nested : Nested) (kind : ListKind) : Reader (List Command) := do
  listFrom nested kind (← supply) []

/-! ### Scripts -/

def nestedTo : Nat → Nested
  | 0 => ⟨fun _ => fail "too many levels", fun _ => fail "too many levels"⟩
  | depth + 1 =>
    let inner := nestedTo depth
    ⟨readList inner, readParts inner⟩

def nestingDepth : Nat := 400

/-- The source of a script whose first line has the given number; `documents` and `shortcuts` are there
already. -/
def sourceOf (text : Text) (line : Nat) (documents : List Word) (shortcuts : List (Text × Text)) : Source :=
  { rest := text, line, documents, shortcuts }

/-- Reads the commands up to the end of a line, and says whether there may be more. -/
def readScriptLine (s : Source) : Except ReadFault (List Command × Bool × Source) := do
  let (commands, s) ← (readList (nestedTo nestingDepth) .line).run s
  let more := match s.pushed with
    | some .endOfFile => false
    | _ => true
  return (commands, more, s)

end Amalgam.Script
