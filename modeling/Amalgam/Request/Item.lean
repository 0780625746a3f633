import Amalgam.Request

/-!
# Items of a command line

Arguments are cut into items before any of them is acted on.  An option may have its value in the argument
itself (`--mode=all`, `-mall`, `-m=all`) or in the next one; letters without values may share a dash; after
`--` every argument is a word.  A next argument that begins with a dash is a value only if it is the dash
alone.

## Main definitions

* `Item` — an option, a word, or something that is neither
* `splitArgument` — the items of one argument, and the option that waits for its value
* `items` — the items of the arguments of an action
-/

namespace Amalgam

/-- What one argument, or part of one, says. -/
inductive Item where
  /-- An option with its value. -/
  | given (switch : Switch) (value : String)
  /-- An option without a value. -/
  | set (switch : Switch)
  /-- A text that belongs to no option. -/
  | word (text : String)
  | unknown (text : String)
  | missingValue (switch : Switch)
  | unexpectedValue (switch : Switch)
  deriving DecidableEq, Repr

/-- Can the argument stand for itself, as a word or a value? -/
def isPlain (arg : String) : Bool :=
  arg == "-" || arg.toList.head? != some '-'

/-- The items of letters that share a dash. -/
def letterItems (scope : List Switch) : List Char → List Item × Option Switch
  | [] => ([], none)
  | c :: cs =>
    match scope.find? (·.short? == some c) with
    | none => ([.unknown (String.ofList ['-', c])], none)
    | some s =>
      if s.value?.isSome then
        match cs with
        | [] => ([], some s)
        | '=' :: value => ([.given s (String.ofList value)], none)
        | value => ([.given s (String.ofList value)], none)
      else
        let (later, waiting) := letterItems scope cs
        (.set s :: later, waiting)

/-- The items of an argument after its two dashes. -/
def longItems (scope : List Switch) (text : List Char) : List Item × Option Switch :=
  let name := String.ofList (text.takeWhile (· != '='))
  match scope.find? (·.long == name) with
  | none => ([.unknown ("--" ++ name)], none)
  | some s =>
    match text.dropWhile (· != '='), s.value?.isSome with
    | _ :: value, true => ([.given s (String.ofList value)], none)
    | _ :: _, false => ([.unexpectedValue s], none)
    | [], true => ([], some s)
    | [], false => ([.set s], none)

/-- The items of one argument, and the option whose value has to follow. -/
def splitArgument (scope : List Switch) (arg : String) : List Item × Option Switch :=
  if isPlain arg then ([.word arg], none)
  else
    match arg.toList with
    | '-' :: '-' :: text => longItems scope text
    | _ :: letters => letterItems scope letters
    | [] => ([.word arg], none)

/-- The items of arguments.  `waiting` is the option whose value has to come next. -/
def itemsAfter (scope : List Switch) : Option Switch → List String → List Item
  | none, [] => []
  | some s, [] => [.missingValue s]
  | none, arg :: rest =>
    if arg = "--" then rest.map .word
    else
      let (found, waiting) := splitArgument scope arg
      found ++ itemsAfter scope waiting rest
  | some s, arg :: rest =>
    if isPlain arg then .given s arg :: itemsAfter scope none rest
    else [.missingValue s]

/-- The items of the arguments of an action. -/
def items (action : Action) (args : List String) : List Item :=
  itemsAfter (switchesOf action) none args

end Amalgam
