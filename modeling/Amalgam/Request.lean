import Amalgam.Artifact

/-!
# Requests

What a command line asks for, once it is read, and what can be wrong with a command line.

## Main definitions

* `Action` — build, combine or graph
* `Switch` — the options, with their spellings
* `switchesOf` — the options that an action takes
* `Request` — what is asked for
* `UsageError`, `UsageError.message` — a command line that asks for nothing
-/

namespace Amalgam

/-- The name the program goes by. -/
def programName : String := "coiler"

/-- The version of the program. -/
def programVersion : String := "0.1.0"

/-- The things that can be asked for about an entry file. -/
inductive Action where
  | build
  | combine
  | graph
  deriving DecidableEq, Repr

namespace Action

/-- All actions. -/
def all : List Action := [build, combine, graph]

/-- The word for an action. -/
def word : Action → String
  | build => "build"
  | combine => "combine"
  | graph => "graph"

/-- The action a word stands for. -/
def ofWord? (word : String) : Option Action :=
  all.find? (·.word == word)

end Action

/-- The options of the command line. -/
inductive Switch where
  | mode
  | interpreter
  | path
  | wildcard
  | cycles
  | output
  | embed
  | sourceOnly
  | json
  | verbose
  | help
  | version
  deriving DecidableEq, Repr

namespace Switch

/-- The name after two dashes. -/
def long : Switch → String
  | mode => "mode"
  | interpreter => "interpreter"
  | path => "path"
  | wildcard => "wildcard"
  | cycles => "cycles"
  | output => "output"
  | embed => "embed"
  | sourceOnly => "source-only"
  | json => "json"
  | verbose => "verbose"
  | help => "help"
  | version => "version"

/-- The letter after one dash. -/
def short? : Switch → Option Char
  | mode => some 'm'
  | output => some 'o'
  | verbose => some 'v'
  | help => some 'h'
  | version => some 'V'
  | _ => none

/-- What the value of an option is called; `none` for an option without a value. -/
def value? : Switch → Option String
  | mode => some "MODE"
  | interpreter => some "INTERPRETER"
  | path => some "DIR"
  | wildcard => some "WILDCARD"
  | cycles => some "CYCLES"
  | output => some "OUTPUT"
  | _ => none

end Switch

/-- The options that may stand before an action. -/
def leadingSwitches : List Switch :=
  [.verbose, .help, .version]

/-- The options that an action takes. -/
def switchesOf (action : Action) : List Switch :=
  let own := match action with
    | .build => [Switch.output, .embed, .sourceOnly]
    | .combine => [.output]
    | .graph => [.json]
  [.mode, .verbose, .interpreter, .path, .wildcard, .cycles] ++ own ++ [.help]

/-- What help is about. -/
inductive Topic where
  | program
  | action (a : Action)
  | help
  deriving DecidableEq, Repr

/-- What a command line asks for. -/
inductive Request where
  | build (entry : Path) (overrides : Overrides) (output : Path) (kind : ArtifactKind)
  | combine (entry : Path) (overrides : Overrides) (output : Option Path)
  | graph (entry : Path) (overrides : Overrides) (json : Bool)
  | help (topic : Topic)
  | version
  deriving DecidableEq, Repr

/-- What is wrong with a command line. -/
inductive UsageError where
  | missingAction
  | unknownAction (word : String)
  | unknownArgument (text : String)
  | missingEntry
  /-- An option needs a value and has none. -/
  | missingValue (switch : Switch)
  /-- An option takes no value and has one. -/
  | unexpectedValue (switch : Switch)
  | repeated (switch : Switch)
  | emptyValue (name : String)
  | unknownPolicy (error : UnknownPolicy)
  | conflict (first second : Switch)
  deriving DecidableEq, Repr

/-- The text of what is wrong. -/
def UsageError.message : UsageError → String
  | missingAction => "a subcommand is required"
  | unknownAction word => "unrecognized subcommand '" ++ word ++ "'"
  | unknownArgument text => "unexpected argument '" ++ text ++ "' found"
  | missingEntry => "the following required arguments were not provided: <ENTRY>"
  | missingValue s => "a value is required for '--" ++ s.long ++ "' but none was supplied"
  | unexpectedValue s => "unexpected value for '--" ++ s.long ++ "' found; no more were expected"
  | repeated s => "the argument '--" ++ s.long ++ "' cannot be used multiple times"
  | emptyValue name => "a value is required for '" ++ name ++ "' but none was supplied"
  | unknownPolicy error => "invalid value: " ++ error.message
  | conflict first second =>
    "the argument '--" ++ first.long ++ "' cannot be used with '--" ++ second.long ++ "'"

end Amalgam
