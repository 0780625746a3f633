import Amalgam.ImportForm.Classify
import Amalgam.Line.Lexer
import Amalgam.Text.Lines

/-!
# Statements

The lines of a file are grouped into statements: an import statement, which may spread over several lines
when its names stand in parentheses, or a single line of code.  `Reader.feed` takes the next line and
`Reader.finish` ends the file; an import whose parenthesis never closes, or that turns out not to be one,
gives its lines back as code.  Lines come out exactly once and in order.

## Main definitions

* `Statement` — a line of code with what the lexer found, or an import statement with its lines
* `Reader`, `Reader.feed`, `Reader.finish`
* `statements` — the statements of a source text
-/

namespace Amalgam

/-- A statement of a file. -/
inductive Statement where
  | code (number : Nat) (line : List Char) (lexed : LexedLine)
  /-- An import statement: the number of its first line, its lines, its clauses, and whether it starts in
  the first column. -/
  | imports (number : Nat) (lines : List (List Char)) (forms : List ImportForm) (topLevel : Bool)
  deriving DecidableEq, Repr

namespace Statement

/-- The source lines of a statement. -/
def lines : Statement → List (List Char)
  | code _ line _ => [line]
  | imports _ lines _ _ => lines

/-- The number of a statement's first line. -/
def number : Statement → Nat
  | code n _ _ => n
  | imports n _ _ _ => n

end Statement

/-- An import statement whose parenthesis is still open: the number of its first line, and its lines so
far. -/
structure Pending where
  number : Nat
  first : List Char × LexedLine
  later : List (List Char × LexedLine)
  deriving DecidableEq, Repr

namespace Pending

/-- All lines so far. -/
def lines (p : Pending) : List (List Char × LexedLine) :=
  p.first :: p.later

/-- The program text of the lines on one line. -/
def codeText (p : Pending) : List Char :=
  p.first.2.codeText ++ p.later.flatMap fun (_, lexed) => ' ' :: lexed.codeText

/-- The lines as code, numbered from `number`. -/
def codeFrom (number : Nat) : List (List Char × LexedLine) → List Statement
  | [] => []
  | (line, lexed) :: rest => .code number line lexed :: codeFrom (number + 1) rest

/-- The lines given back as code. -/
def asCode (p : Pending) : List Statement :=
  codeFrom p.number p.lines

/-- The statement that the closed lines are: an import, or else code. -/
def close (p : Pending) : List Statement :=
  match classify? (lexFresh p.codeText).tokens with
  | some forms => [.imports p.number (p.lines.map Prod.fst) forms p.first.2.startsAtMargin]
  | none => p.asCode

end Pending

/-- A reader between two lines: the string left open, and an import left open. -/
structure Reader where
  state : Option Quote := none
  pending : Option Pending := none
  deriving DecidableEq, Repr

/-- Are these the kinds of `import` directly before an opening parenthesis, anywhere in the list? -/
def hasImportParen : List Token.Kind → Bool
  | .importWord :: .lparen :: _ => true
  | _ :: rest => hasImportParen rest
  | [] => false

/-- Does the line start a `from` statement whose parenthesis it does not close? -/
def opensNameList (line : LexedLine) : Bool :=
  let kinds := line.tokens.map Token.kind
  kinds.head? == some .fromWord && hasImportParen kinds && !kinds.contains .rparen

namespace Reader

/-- Takes the next line and returns the statements it completes. -/
def feed (r : Reader) (number : Nat) (line : List Char) : Reader × List Statement :=
  let (lexed, state) := lexFrom r.state line
  match r.pending with
  | some p =>
    let p := { p with later := p.later ++ [(line, lexed)] }
    if lexed.tokens.any (·.kind = .rparen) then (⟨state, none⟩, p.close) else (⟨state, some p⟩, [])
  | none =>
    if lexed.startsInString then (⟨state, none⟩, [.code number line lexed])
    else
      match classify? lexed.tokens with
      | some forms => (⟨state, none⟩, [.imports number [line] forms lexed.startsAtMargin])
      | none =>
        if opensNameList lexed then (⟨state, some ⟨number, (line, lexed), []⟩⟩, [])
        else (⟨state, none⟩, [.code number line lexed])

/-- Ends the file and returns the lines of an import that was never closed. -/
def finish (r : Reader) : List Statement :=
  match r.pending with
  | some p => p.asCode
  | none => []

/-- The statements of the lines that follow, numbered from `number`. -/
def readFrom (r : Reader) (number : Nat) : List (List Char) → List Statement
  | [] => r.finish
  | line :: rest => (r.feed number line).2 ++ (r.feed number line).1.readFrom (number + 1) rest

end Reader

/-- The statements of a source text. -/
def statements (source : List Char) : List Statement :=
  Reader.readFrom {} 1 (sourceLines source)

end Amalgam
