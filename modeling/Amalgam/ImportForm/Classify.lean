import Amalgam.ImportForm
import Amalgam.Token

/-!
# Recognising import statements

A list of tokens is an import statement when all of it is.  No clause holds a comma, so a list of clauses
is read by cutting the tokens at the commas; the module of a `from` statement is what stands before the
word `import`.

    statement  ::=  import clause (, clause)*
                 |  from dotted import *
                 |  from dotted import name (, name)*
                 |  from dotted import ( name (, name)* [,] )
    clause     ::=  dotted [as ident]
    name       ::=  ident [as ident]
    dotted     ::=  ident (. ident)*

## Main definitions

* `splitTokens` — tokens cut at each token of a kind
* `dotted?`, `moduleClause?`, `symbolClause?` — the parts of the grammar
* `classify?` — the forms of a whole statement
-/

namespace Amalgam

/-- Puts a token in front of the first piece. -/
def prependToken (t : Token) : List (List Token) → List (List Token)
  | [] => [[t]]
  | piece :: pieces => (t :: piece) :: pieces

/-- The pieces of a token list between the tokens of a kind. -/
def splitTokens (kind : Token.Kind) : List Token → List (List Token)
  | [] => [[]]
  | t :: ts =>
    if t.kind = kind then [] :: splitTokens kind ts else prependToken t (splitTokens kind ts)

/-- The dotted name that the tokens are. -/
def dotted? : List Token → Option String
  | [⟨.ident, _, name⟩] => some name
  | ⟨.ident, _, name⟩ :: ⟨.dot, _, _⟩ :: rest => (dotted? rest).map (name ++ "." ++ ·)
  | _ => none

/-- One clause of an `import` statement. -/
def moduleClause? (tokens : List Token) : Option ImportForm :=
  match tokens.takeWhile (·.kind ≠ .asWord), tokens.dropWhile (·.kind ≠ .asWord) with
  | name, [] => (dotted? name).map .module
  | name, [_, ⟨.ident, _, given⟩] => (dotted? name).map (.moduleAs · given)
  | _, _ => none

/-- One name of a `from` statement. -/
def symbolClause? (source : String) : List Token → Option ImportForm
  | [⟨.ident, _, symbol⟩] => some (.symbol source symbol)
  | [⟨.ident, _, symbol⟩, ⟨.asWord, _, _⟩, ⟨.ident, _, given⟩] =>
    some (.symbolAs source symbol given)
  | _ => none

/-- A list of names without parentheses. -/
def symbolClauses? (source : String) (tokens : List Token) : Option (List ImportForm) :=
  (splitTokens .comma tokens).mapM (symbolClause? source)

/-- A list of names between parentheses: a comma may follow the last name. -/
def enclosedClauses? (source : String) (tokens : List Token) : Option (List ImportForm) :=
  let pieces := splitTokens .comma tokens
  if 1 < pieces.length ∧ pieces.getLast? = some [] then
    pieces.dropLast.mapM (symbolClause? source)
  else pieces.mapM (symbolClause? source)

/-- What follows the word `import` of a `from` statement. -/
def fromClauses? (source : String) (tokens : List Token) : Option (List ImportForm) :=
  match tokens with
  | [⟨.star, _, _⟩] => some [.wildcard source]
  | ⟨.lparen, _, _⟩ :: rest =>
    match rest.getLast? with
    | some ⟨.rparen, _, _⟩ => enclosedClauses? source rest.dropLast
    | _ => none
  | _ => symbolClauses? source tokens

/-- The clauses of the import statement that the tokens are, in order. -/
def classify? : List Token → Option (List ImportForm)
  | ⟨.importWord, _, _⟩ :: rest => (splitTokens .comma rest).mapM moduleClause?
  | ⟨.fromWord, _, _⟩ :: rest =>
    match rest.dropWhile (·.kind ≠ .importWord) with
    | _ :: clauses =>
      (dotted? (rest.takeWhile (·.kind ≠ .importWord))).bind (fromClauses? · clauses)
    | [] => none
  | _ => none

end Amalgam
