import Amalgam.Request.Item

/-!
# Reading a command line

The items of a command line are acted on from left to right.  The first that is wrong, or that asks for
help, decides; what is missing or cannot go together is only looked for at the end.

## Main definitions

* `Choices`, `Choices.take` — what the items up to a point say
* `Choices.request` — what they ask for
* `readRequest` — the request of a command line
-/

namespace Amalgam

/-- What the items of an action say. -/
structure Choices where
  entry : Option Path := none
  output : Option Path := none
  overrides : Overrides := {}
  /-- The options without a value that were given, `--verbose` apart. -/
  flags : List Switch := []
  /-- How often `--verbose` was given. -/
  verbosity : Nat := 0
  deriving DecidableEq, Repr

/-- The end of reading before the last item. -/
inductive Stop where
  | wrong (error : UsageError)
  | asked (request : Request)
  deriving DecidableEq, Repr

/-- A path that a command line names. -/
def pathOf (name text : String) : Except Stop Path :=
  if text.isEmpty then .error (.wrong (.emptyValue name)) else .ok ⟨text⟩

/-- The first value of an option that may be given once. -/
def once {α : Type} (switch : Switch) (old : Option α) (new : Except UsageError α) :
    Except Stop (Option α) :=
  match old, new with
  | some _, _ => .error (.wrong (.repeated switch))
  | none, .error e => .error (.wrong e)
  | none, .ok value => .ok (some value)

namespace Choices

/-- One more option with a value. -/
def give (c : Choices) (switch : Switch) (value : String) : Except Stop Choices :=
  let o := c.overrides
  match switch with
  | .mode =>
    (once .mode o.mode ((SearchMode.parse value).mapError .unknownPolicy)).map fun mode =>
      { c with overrides := { o with mode } }
  | .wildcard =>
    (once .wildcard o.wildcard ((WildcardPolicy.parse value).mapError .unknownPolicy)).map
      fun wildcard => { c with overrides := { o with wildcard } }
  | .cycles =>
    (once .cycles o.cycles ((CyclePolicy.parse value).mapError .unknownPolicy)).map fun cycles =>
      { c with overrides := { o with cycles } }
  | .interpreter =>
    (once .interpreter o.interpreter (.ok value)).map fun interpreter =>
      { c with overrides := { o with interpreter } }
  | .path =>
    (pathOf "--path" value).map fun dir =>
      { c with overrides := { o with paths := o.paths ++ [dir] } }
  | .output => do
    let path ← pathOf "--output" value
    let output ← once .output c.output (.ok path)
    return { c with output }
  | other => .error (.wrong (.unexpectedValue other))

/-- One more option without a value. -/
def set (c : Choices) (action : Action) (switch : Switch) : Except Stop Choices :=
  match switch with
  | .help => .error (.asked (.help (.action action)))
  | .verbose => .ok { c with verbosity := c.verbosity + 1 }
  | other =>
    if c.flags.contains other then .error (.wrong (.repeated other))
    else .ok { c with flags := c.flags ++ [other] }

/-- One more item. -/
def take (action : Action) (c : Choices) : Item → Except Stop Choices
  | .given switch value => c.give switch value
  | .set switch => c.set action switch
  | .word text =>
    match c.entry with
    | some _ => .error (.wrong (.unknownArgument text))
    | none => (pathOf "<ENTRY>" text).map fun entry => { c with entry := some entry }
  | .unknown text => .error (.wrong (.unknownArgument text))
  | .missingValue switch => .error (.wrong (.missingValue switch))
  | .unexpectedValue switch => .error (.wrong (.unexpectedValue switch))

/-- The kind of artifact that was chosen. -/
def kind (c : Choices) : ArtifactKind :=
  if c.flags.contains .embed then .executable
  else if c.flags.contains .sourceOnly then .source
  else .bytecode

end Choices

/-- The file an artifact is written to if no other is named. -/
def ArtifactKind.defaultOutput : ArtifactKind → Path
  | bytecode => ⟨"a.pyc"⟩
  | executable => ⟨"a.out"⟩
  | source => ⟨"a.py"⟩

/-- What the items of an action ask for. -/
def Choices.request (c : Choices) (action : Action) : Except UsageError Request :=
  if c.flags.contains .embed && c.flags.contains .sourceOnly then
    .error (.conflict .embed .sourceOnly)
  else
    match c.entry with
    | none => .error .missingEntry
    | some entry =>
      .ok <| match action with
        | .build => .build entry c.overrides (c.output.getD c.kind.defaultOutput) c.kind
        | .combine => .combine entry c.overrides c.output
        | .graph => .graph entry c.overrides (c.flags.contains .json)

/-- The request of an action with its arguments. -/
def readAction (action : Action) (args : List String) : Except UsageError Request :=
  match (items action args).foldlM (Choices.take action) {} with
  | .error (.wrong e) => .error e
  | .error (.asked request) => .ok request
  | .ok choices => choices.request action

/-- The request for help about something. -/
def readHelp : List String → Except UsageError Request
  | [] => .ok (.help .program)
  | ["help"] => .ok (.help .help)
  | word :: rest =>
    match Action.ofWord? word, rest with
    | none, _ => .error (.unknownAction word)
    | some action, [] => .ok (.help (.action action))
    | some _, other :: _ => .error (.unknownAction other)

/-- The first item before an action that decides the request. -/
def leadingStop? : List Item → Option (Except UsageError Request)
  | [] => none
  | .set .help :: _ => some (.ok (.help .program))
  | .set .version :: _ => some (.ok .version)
  | .set _ :: rest => leadingStop? rest
  | .unexpectedValue switch :: _ => some (.error (.unexpectedValue switch))
  | .unknown text :: _ => some (.error (.unknownArgument text))
  | .word text :: _ => some (.error (.unknownArgument text))
  | .given switch _ :: _ => some (.error (.unexpectedValue switch))
  | .missingValue switch :: _ => some (.error (.missingValue switch))

/-- The request of a command line. -/
def readRequest : List String → Except UsageError Request
  | [] => .error .missingAction
  | arg :: rest =>
    if isPlain arg then
      if arg = "help" then readHelp rest
      else
        match Action.ofWord? arg with
        | some action => readAction action rest
        | none => .error (.unknownAction arg)
    else if arg = "--" then
      match rest with
      | [] => .error .missingAction
      | word :: _ => .error (.unknownAction word)
    else
      match leadingStop? (splitArgument leadingSwitches arg).1 with
      | some answer => answer
      | none => readRequest rest

end Amalgam
