import Amalgam.Host
import Amalgam.Script.Program

/-!
# Running commands

What commands do.  A command runs the commands that it consists of through an `Engine`; `engine` ties the
knot, up to a depth.  A host runs scripts of a file tree and nothing else but the programs of the system.
-/

namespace Amalgam.Script

/-- Ends the shell after a failure, if it is to end then and the status is not looked at. -/
def checkFailure (tested : Bool) : Run Unit := do
  let s ← get
  if s.status ≠ 0 && s.has 'e' && !tested then throw .exit

/-! ### Simple commands -/

/-- Commands whose arguments may be assignments, which are not split. -/
def takesAssignments (name : Text) : Bool :=
  ["alias", "export", "local", "readonly"].contains (String.ofList name)

/-- The words of a command.  The first of them decides how the others are expanded. -/
def commandWords (e : Engine) : List Word → Run (List Text)
  | [] => return []
  | w :: rest => do
    match ← expandWord e w with
    | [] => commandWords e rest
    | name :: args =>
      if takesAssignments name then
        let more ← rest.mapM fun w => do
          match assignment? w with
          | some (key, value) => return [key ++ '=' :: (← expandValue e value)]
          | none => expandWord e w
        return name :: args ++ more.flatten
      else return name :: args ++ (← expandWords e rest)

/-- Shows a command before it is run, if that is asked for.  This goes to where errors went before the
redirections of the command. -/
def trace (e : Engine) (before : List (Nat × Nat)) (words : List Text) : Run Unit := do
  let s ← get
  if s.has 'x' && !words.isEmpty then
    -- The text in front is not traced itself.
    set { s with options := s.options.filter (· != 'x') }
    let start ← expandInside e ((s.value? "PS4".toList).getD [])
    modify fun now => { now with options := s.options, inner := s.inner }
    match before.lookup 2 with
    | some id => writeChannel id (asLine (start ++ unwords words))
    | none => return ()

def assign (e : Engine) (exporting : Bool) (assignments : List (Text × Word)) : Run (List Text) :=
  assignments.mapM fun (name, w) => do
    let value ← expandValue e w
    setVariable name value
    if exporting then exportVariable name
    return name ++ '=' :: value

def Shell.restore (s : Shell) (name : Text) (old : Option Variable) : Shell :=
  let s := if name == optionIndexName then
      { s with optionPlace := ((old.bind Variable.value).bind OptionPlace.ofText?).getD {} } else s
  let s := if name == searchPathName then { s with known := [] } else s
  match old with
  | some v => s.put name v
  | none => { s with vars := s.vars.filter (·.1 != name) }

def restoreVariables (saved : List (Text × Option Variable)) : Run Unit :=
  modify fun s => saved.foldl (fun s (name, old) => s.restore name old) s

def withAssignments (e : Engine) (assignments : List (Text × Word)) (body : List Text → Run Unit) :
    Run Unit := do
  let s ← get
  let saved := assignments.map fun (name, _) => (name, s.vars.lookup name)
  tryCatch
    (do
      let words ← assign e true assignments
      body words)
    fun stop => do
      restoreVariables saved
      throw stop
  restoreVariables saved

def maxCalls : Nat := 1000

def callFunction (e : Engine) (tested : Bool) (body : Command) (args : List Text) : Run Unit := do
  let s ← get
  if maxCalls ≤ s.hidden.length then
    abort ("Maximum function recursion depth (".toList ++ ofNat maxCalls ++ ") reached".toList)
  set { s with args, loops := 0, hidden := [] :: s.hidden, optionPlace := {} }
  let close : Run Unit := do
    let own := (← get).hidden.headD []
    modify fun now =>
      { now with args := s.args, loops := s.loops, hidden := s.hidden, optionPlace := s.optionPlace }
    restoreVariables own
  tryCatch (e.run tested body) fun
    | .giveBack => return ()
    | stop => do
      close
      throw stop
  close

def runBuiltin (e : Engine) (builtin : Utility) (name : Text) (args : List Text) : Run Unit := do
  let speaker := (← get).speaker
  modify fun s => { s with speaker := some name }
  let status ← tryCatch (builtin e name args) fun stop => do
    modify fun s => { s with speaker }
    throw stop
  modify fun s => { s with speaker, status }

/-- Runs a command whose faults do not end the shell. -/
def forgiving (body : Run Unit) : Run Unit :=
  tryCatch body fun
    | .fault => return ()
    | stop => throw stop

/-- The words of the command that is meant after `command`, unless they ask for something else, and whether it is
to be looked for in the standard directories. -/
def commandTarget (standard : Bool) : List Text → Option (Bool × List Text)
  | [] => none
  | ['-', 'p'] :: rest => commandTarget true rest
  | ['-', '-'] :: rest => if rest.isEmpty then none else some (standard, rest)
  | ('-' :: _ :: _) :: _ => none
  | words => some (standard, words)

/-- Goes on after a process has ended.  If that was the last command of a shell of its own which has nothing more
to do, the process was that shell. -/
def finish (final : Bool) (ended : Ended) : Run Unit := do
  noteChild
  if final && ended matches .killed _ && (← get).traps.all (·.2.isEmpty) then throw (.replaced ended)
  showEnd? ended
  setStatus ended.status

def runOutside (e : Engine) (final : Bool) (searchPath : Option Text) (argv : List Text) : Run Unit := do
  finish final (← runFound e searchPath argv)

def runNamed (e : Engine) (tested final : Bool) (assignments : List (Text × Word)) (redirects : List Redirect)
    (name : Text) (args : List Text) : Run Unit := do
  let spelling := String.ofList name
  let before := (← get).descriptors
  let temporary (body : Run Unit) : Run Unit := keepingDescriptors redirects do
    if ← redirect e redirects then
      withAssignments e assignments fun words => do
        trace e before (words ++ name :: args)
        body
    else setStatus 2
  match specialBuiltin? tested spelling with
  | some builtin =>
    let body : Run Unit := do
      if !(← redirect e redirects) then
        setStatus 2
        throw .fault
      let words ← assign e (spelling == "exec" && !args.isEmpty) assignments
      trace e before (words ++ name :: args)
      runBuiltin e builtin name args
    if spelling = "exec" then body else keepingDescriptors redirects body
  | none =>
    match (← get).functions.lookup name with
    | some function => temporary (callFunction e tested function args)
    | none =>
      let own (standard : Bool) (name : Text) (args : List Text) (builtin? : Option Utility) : Run Unit :=
        match builtin? with
        | some builtin => temporary (forgiving (runBuiltin e builtin name args))
        | none => temporary do
          let given := (← get).searchPath
          let searchPath := if standard then some standardPath
            else if assignments.any (·.1 == searchPathName) then some given else none
          runOutside e final searchPath (name :: args)
      if spelling = "command" then
        match commandTarget false args with
        | some (standard, name :: args) =>
          let spelling := String.ofList name
          own standard name args ((specialBuiltin? tested spelling).orElse fun _ => plainBuiltin? spelling)
        | _ => own false name args (plainBuiltin? spelling)
      else own false name args (plainBuiltin? spelling)

/-- Runs assignments, redirections and a command by name, all of which may be missing. -/
def runSimple (e : Engine) (tested final : Bool) (line : Nat) (assignments : List (Text × Word))
    (words : List Word) (redirects : List Redirect) : Run Unit := do
  modify fun s => { s with line, inner := 0 }
  match ← commandWords e words with
  | name :: args => runNamed e tested final assignments redirects name args
  | [] =>
    let before := (← get).descriptors
    keepingDescriptors redirects do
      if ← redirect e redirects then
        trace e before (← assign e false assignments)
        modify fun s => { s with status := s.inner }
      else setStatus 2

/-! ### Loops -/

/-- How a turn of a loop ended. -/
inductive Turn where
  | done
  | again
  | left
  deriving DecidableEq, Repr

def turn (body : Run Unit) : Run Turn :=
  tryCatch
    (do
      body
      return .done)
    fun
      | .leave levels => if levels ≤ 1 then return .left else throw (.leave (levels - 1))
      | .again levels => if levels ≤ 1 then return .again else throw (.again (levels - 1))
      | stop => throw stop

def inLoop (body : Run Unit) : Run Unit := do
  modify fun s => { s with loops := s.loops + 1 }
  tryCatch body fun stop => do
    modify fun s => { s with loops := s.loops - 1 }
    throw stop
  modify fun s => { s with loops := s.loops - 1 }

/-- Repeats a command while a test succeeds, or until it does.  `status` is that of the last turn. -/
def repeatLoop (e : Engine) (tested untilTrue : Bool) (test body : Command) : Nat → Nat → Run Unit
  | 0, _ => die 9
  | fuel + 1, status => do
    match ← turn (e.run true test) with
    | .left => setStatus status
    | .again => repeatLoop e tested untilTrue test body fuel status
    | .done =>
      if ((← get).status == 0) == untilTrue then setStatus status
      else
        match ← turn (e.run tested body) with
        | .left => return ()
        | _ => repeatLoop e tested untilTrue test body fuel (← get).status

def forEach (e : Engine) (tested : Bool) (name : Text) (body : Command) : List Text → Run Unit
  | [] => return ()
  | word :: rest => do
    setVariable name word
    match ← turn (e.run tested body) with
    | .left => return ()
    | _ => forEach e tested name body rest

/-! ### Commands -/

/-- The command of the first case that has a pattern which the text fits. -/
def chosen? (e : Engine) (t : Text) : List (List Word × Command) → Run (Option Command)
  | [] => return none
  | (patterns, body) :: rest => do
    let fitting ← patterns.foldlM
      (fun found w => do if found then return true else return fits (← expandPattern e w) t) false
    if fitting then return some body else chosen? e t rest

/-! ### Pipes -/

/-- Has a reader of the channel come to its end, although more would have been written? -/
def hasMissed (id : Nat) : Run Bool := do
  match (← get).channels[id]? with
  | some (.stream stream) => return stream.missed
  | _ => return false

def noteCut (id : Nat) : Run Unit := do
  match (← get).channels[id]? with
  | some (.stream stream) => setChannel id (.stream { stream with cut := true })
  | _ => return ()

def Command.plainName? : Command → Option Text
  | .simple _ _ ([.plain name false] :: _) _ | .series [.simple _ _ ([.plain name false] :: _) _] =>
    if isName name then some name else none
  | _ => none

def seek (command : Command) : Run Unit := do
  match command.plainName? with
  | some name => if (← get).isSought name then let _ ← findProgram name
  | none => return ()

/-- Runs commands each of which reads what the one before it writes, from a channel on.  Between them there
is `room` for a number of characters; a command that writes more is ended.  Gives the status of the last
command, and whether it would have read more than there was. -/
def runStages (e : Engine) (tested : Bool) (room : Nat) : Option Nat → List Command → Run (Nat × Bool)
  | _, [] => return (0, false)
  | input, command :: rest => do
    let output ← if rest.isEmpty then pure none else
      some <$> addChannel (.stream { room := some room })
    seek command
    let ended ← isolated e do
      match input with
      | some id => setDescriptor 0 id
      | none => pure ()
      match output with
      | some id => setDescriptor 1 id
      | none => pure ()
      e.run tested command
    match output with
    | some id => settleHolders e id
    | none => pure ()
    showEnd? ended
    let starved ← match input with
      | some id => if ended = brokenEnd then pure false else hasMissed id
      | none => pure false
    match output with
    | none => return (ended.status, starved)
    | some id =>
      if starved then noteCut id
      runStages e tested room output rest

def pipeRoom : Nat := 65536

/-- Runs a pipe.  If the last command would have read more than there was, everything is done again with more
room, unless that has happened too often. -/
def runPipe (e : Engine) (tested : Bool) (commands : List Command) : Nat → Nat → Run Unit
  | 0, room => do
    let (status, _) ← runStages e tested room none commands
    setStatus status
  | tries + 1, room => do
    let before ← get
    let (status, starved) ← runStages e tested room none commands
    if starved then
      set before
      runPipe e tested commands tries (8 * room)
    else setStatus status

def runCommand (e : Engine) (tested : Bool) (c : Command) : Run Unit := do
  if (← get).has 'n' then return ()
  let final ← takeFinal
  match c with
  | .simple line assignments words redirects =>
    runSimple e tested final line assignments words redirects
    receiveArrived e
    checkFailure tested
  | .series commands =>
    for (command, i) in commands.zipIdx do
      setFinal (final && i + 1 == commands.length)
      e.run tested command
  | .pipe commands =>
    runPipe e tested commands 2 pipeRoom
    noteChild
    receiveArrived e
    checkFailure tested
  | .negate body =>
    e.run true body
    setStatus (if (← get).status = 0 then 1 else 0)
  | .andThen first second =>
    e.run true first
    if (← get).status = 0 then
      setFinal final
      e.run tested second
  | .orElse first second =>
    e.run true first
    if (← get).status ≠ 0 then
      setFinal final
      e.run tested second
  | .background body => runBackground e body
  | .subshell line body redirects =>
    modify fun s => { s with line }
    let targets ← redirects.mapM (targetText e)
    finish final <| ← isolated e do
      if ← openTargets e targets then e.run tested body else setStatus 2
    receiveArrived e
    checkFailure tested
  | .redirected line body redirects =>
    modify fun s => { s with line }
    keepingDescriptors redirects do
      if ← redirect e redirects then e.run tested body
      else
        setStatus 2
        checkFailure tested
  | .branch test yes no =>
    e.run true test
    setFinal final
    if (← get).status = 0 then e.run tested yes
    else
      match no with
      | some body => e.run tested body
      | none => setStatus 0
  | .loop untilTrue test body => inLoop (repeatLoop e tested untilTrue test body maxTurns 0)
  | .each line name words body =>
    modify fun s => { s with line }
    let values ← match words with
      | some words => expandWords e words
      | none => pure (← get).args
    if values.isEmpty then setStatus 0 else inLoop (forEach e tested name body values)
  | .choose line subject cases =>
    modify fun s => { s with line }
    let text ← expandText e subject
    match ← chosen? e text cases with
    | some (.series []) | none => setStatus 0
    | some body =>
      setFinal final
      e.run tested body
  | .define name body =>
    modify fun s =>
      { s.forget name with functions := (name, body) :: s.functions.filter (·.1 != name), status := 0 }

def engine : Nat → Engine
  | 0 => ⟨fun _ _ => die 11, fun _ _ => die 11⟩
  | depth + 1 =>
    ⟨fun tested command => runCommand (engine depth) tested command,
     fun path argv => startProgram (engine depth) path argv⟩

def runDepth : Nat := 10000

/-! ### The host -/

/-- The state in which a program is started: it has no input, and what it writes is kept. -/
def initialShell (tree : FileTree) : Shell :=
  let exported (name : String) (value : Text) : Text × Variable :=
    (name.toList, { value := some value, exported := true })
  { tree := { tree with now := some (timeAt 0) }
    channels := #[.ofText [], .ofText [], .ofText []]
    descriptors := [(0, 0), (1, 1), (2, 2)]
    vars := [exported "PATH" standardPath, exported "HOME" "/root".toList,
      exported "PWD" (ofString (Path.ofLocation tree.workdir).text)] }

def Shell.outputBytes (s : Shell) (id : Nat) : Bytes :=
  match s.channels[id]? with
  | some (.stream stream) => toBytes stream.text
  | _ => []

/-- The program that a command starts, with its arguments. -/
def programOf (tree : FileTree) (command : Amalgam.Command) : Except OsError (String × List Text) := do
  let argv := (command.program :: command.args).map ofString
  if argv.any fun t => t.any isNul then throw .nulInCommand
  if command.program.isEmpty then throw .notFound
  let path := ofString command.program
  if path.contains '/' then programAt tree maxInterpreters path argv
  else programNamed tree argv .notFound (candidates standardPath path)

/-- Runs a program to its end.  Where it went, and what rights it withheld from new files, is given up. -/
def runProgram (tree : FileTree) (program : String × List Text) : Outcome × FileTree :=
  let body : Run Ended := do
    let ended ← process (engine runDepth) program.1 program.2
    settle (engine runDepth) (fun _ => true) maxJobs
    return ended
  let (result, after) := body.run.run (initialShell tree)
  let status := match result with
    | .ok ended => ended.status
    | .error _ => 1
  let left := { after.tree with workdir := tree.workdir, mask := tree.mask, now := tree.now }
  (⟨status, after.outputBytes 1, after.outputBytes 2⟩, left)

/-- The host that runs scripts. -/
def host : Host where
  run tree command := (programOf tree command).map (runProgram tree)

/-- How a file with given content stands in a tree: it may be run if it says what runs it. -/
def entryOf (content : Bytes) : Entry :=
  .file content ("#!".toList.isPrefixOf (ofBytes (content.take 2)))

end Amalgam.Script
