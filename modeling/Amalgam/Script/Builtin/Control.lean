import Amalgam.Script.Builtin.Variables
import Amalgam.Script.Lookup
import Amalgam.Script.Redirect
import Amalgam.Script.Signal

/-!
# Commands for the flow of scripts

Commands of a shell that end or leave something, that run texts as commands, and that deal with signals.
-/

namespace Amalgam.Script

def countArgument (t : Text) : Run Nat := do
  let n ← numberOrAbort false t
  if n < 0 then abort ("Illegal number: ".toList ++ t)
  return n.toNat

/-! ### Leaving -/

def leaveLoops (stop : Nat → Stop) : Utility := fun _ _ args => do
  let count ← match args with
    | t :: _ =>
      let n ← countArgument t
      if n = 0 then abort ("Illegal number: ".toList ++ t)
      pure n
    | [] => pure 1
  setStatus 0
  let levels := min count (← get).loops
  if levels = 0 then return 0
  throw (stop levels)

def breakCommand : Utility :=
  leaveLoops .leave

def continueCommand : Utility :=
  leaveLoops .again

def returnCommand : Utility := fun _ _ args => do
  match args with
  | t :: _ => setStatus (← countArgument t)
  | [] => pure ()
  throw .giveBack

def exitCommand : Utility := fun _ _ args => do
  match args with
  | t :: _ => setStatus (← countArgument t)
  | [] =>
    match (← get).leaving with
    | some status => setStatus status
    | none => pure ()
  throw .exit

/-! ### Running texts -/

def evalCommand (tested : Bool) : Utility := fun e _ args => do
  if args.isEmpty then return 0
  runSource e tested (unwords args)
  return (← get).status

def scriptPath (name : Text) : Run Text := do
  if name.contains '/' then return name
  match (← get).fileNamed? name with
  | some path => return path
  | none => abort (name ++ ": not found".toList)

def dotCommand : Utility := fun e _ args => do
  let (_, operands) ← leadingOptions "" args
  match operands with
  | [] => return 0
  | name :: _ =>
    let path ← scriptPath name
    match ← readFile path with
    | .error .isDirectory => return 0
    | .error e => abort ("cannot open ".toList ++ path ++ ": ".toList ++ (openErrorText false e).toList)
    | .ok text =>
      modify fun s => { s with speaker := some path }
      tryCatch (runSource e false text) fun
        | .giveBack => return ()
        | stop => throw stop
      return (← get).status

/-! ### Programs -/

def startErrorText : OsError → String
  | .notFound | .notDirectory => "not found"
  | e => e.text

def startErrorStatus : OsError → Nat
  | .notFound | .notDirectory | .tooManyLinks | .nameTooLong => 127
  | _ => 126

/-- Starts the first program among paths that can be started; a file that is no program is a script. -/
def startFirst (e : Engine) (argv : List Text) (fault : OsError) : List Text → Run (Except OsError Ended)
  | [] => return .error fault
  | path :: rest => do
    match ← e.start path argv with
    | .ok ended => return .ok ended
    | .error .notFound | .error .notDirectory => startFirst e argv fault rest
    | .error .execFormat =>
      let shell := "/bin/sh".toList
      match ← e.start shell (shell :: path :: argv.drop 1) with
      | .ok ended => return .ok ended
      | .error other => startFirst e argv other rest
    | .error other => startFirst e argv other rest

/-- Runs the first program among paths that can be run, or says why there is none. -/
def runFirst (e : Engine) (argv : List Text) (paths : List Text) : Run Ended := do
  match ← startFirst e argv .notFound paths with
  | .ok ended => return ended
  | .error fault =>
    complain (argv.headD [] ++ ": ".toList ++ (startErrorText fault).toList)
    return .exited (startErrorStatus fault)

def complainMissing (name : Text) (paths : List Text) : Run Unit := do
  let fault := missingFault (← get).tree paths
  complain (name ++ ": ".toList ++ (startErrorText fault).toList)

/-- Runs a program that is looked for first: one that is not found is not started.  Unless a search path is
given, the shell knows the program from then on. -/
def runFound (e : Engine) (searchPath : Option Text) (argv : List Text) : Run Ended := do
  let name := argv.headD []
  let s ← get
  let paths := candidates (searchPath.getD s.searchPath) name
  if name.contains '/' then return ← runFirst e argv paths
  let found ← match searchPath with
    | some _ => pure (programIndex? s.tree none paths)
    | none => findProgram name
  match found with
  | some index => runFirst e argv (paths.drop index)
  | none =>
    complainMissing name paths
    return .exited 127

def execCommand : Utility := fun e _ args => do
  if args.isEmpty then return 0
  match ← runFirst e args (candidates (← get).searchPath (args.headD [])) with
  | .exited status =>
    modify fun s => { s with status, traps := [] }
    throw .exit
  | .killed signal => if (← get).inner? then throw (.replaced (.killed signal)) else die signal

/-! ### Signals -/

def trapCommand : Utility := fun _ _ args => do
  let (_, operands) ← leadingOptions "" args
  let (action, names) : Option Text × List Text := match operands with
    | [] => (none, [])
    | [one] => (none, [one])
    | action :: names => if (natOf? action).isSome then (none, operands) else (some action, names)
  if operands.isEmpty then
    let kept := (← get).traps
    for name in (List.range (lastFree + 1)).map signalName do
      match kept.lookup name with
      | some text => say (asLine ("trap -- ".toList ++ singleQuoted text ++ ' ' :: name))
      | none => pure ()
    return 0
  let rec each : List Text → Run Nat
    | [] => return 0
    | t :: rest => do
      match signalOf? t with
      | none => toolFails "trap".toList 1 (t ++ ": bad trap".toList)
      | some signal =>
        let name := signalName signal
        modify fun s =>
          let others := s.traps.filter (·.1 != name)
          { s with traps := match action with
              | some text => if text = ['-'] then others else (name, text) :: others
              | none => others }
        each rest
  each names

def killUsage {α : Type} : Run α :=
  abort ("Usage: kill [-s sigspec | -signum | -sigspec] [pid | job]... or\n" ++ "kill -l [exitstatus]").toList

/-- Sends a signal to a process: the shell, one that has started it, or a command that waits in the
background.  Says whether there is such a process. -/
def signalProcess (e : Engine) (signal target : Nat) : Run Bool := do
  let s ← get
  if target = s.number ∧ !s.inner? then
    receive e signal
    return true
  match (s.number, s.traps) :: s.outer |>.lookup target with
  | some _ =>
    let traps := (s.outer.lookup target).getD s.traps
    if traps.lookup (signalName signal) ≠ some [] then
      set { s with arrived := s.arrived ++ [(target, signal)] }
    return true
  | none =>
    if s.deferred.any (·.number == target) then
      if !isHarmless signal then
        set { s with
          deferred := s.deferred.filter (·.number != target)
          finished := (target, .killed signal) :: s.finished }
      return true
    return false

/-- Sends a signal to the process that a text means, and says whether there is one.  A job is meant as a group of
processes, which it is not. -/
def signalTarget (e : Engine) (signal : Nat) (t : Text) : Run Bool := do
  match t with
  | '%' :: _ =>
    match jobNamed (← get).jobs t with
    | .ok _ => return false
    | .error fault => abort fault
  | _ => signalProcess e signal (← countArgument t)

def sendSignal (e : Engine) (signal : Nat) : List Text → Nat → Run Nat
  | [], status => return status
  | t :: rest, status => do
    if ← signalTarget e signal t then sendSignal e signal rest status
    else
      complain "No such process\n".toList
      sendSignal e signal rest 1

def listSignals (operands : List Text) : Run Nat := do
  match operands with
  | [] =>
    say "0\n".toList
    for signal in List.range 64 do
      say (asLine (signalName (signal + 1)))
    return 0
  | t :: _ =>
    let n ← countArgument t
    let signal := if 128 < n then n - 128 else n
    if signal = 0 ∨ 64 < signal then abort ("invalid signal number or exit status: ".toList ++ t)
    say (asLine (signalName signal))
    return 0

def killCommand : Utility := fun e _ args => do
  match args with
  | [] => killUsage
  | ['-', 'l'] :: operands => listSignals operands
  | [['-', 's']] => abort "No arg for -s option".toList
  | ['-', 's'] :: t :: targets =>
    match signalOf? t with
    | some signal => if targets.isEmpty then killUsage else sendSignal e signal targets 0
    | none => abort ("invalid signal number or name: ".toList ++ t)
  | ('-' :: c :: more) :: targets =>
    match signalOf? (c :: more) with
    | some signal => if targets.isEmpty then killUsage else sendSignal e signal targets 0
    | none =>
      if c = 's' then
        match signalOf? more with
        | some signal => if targets.isEmpty then killUsage else sendSignal e signal targets 0
        | none => abort ("invalid signal number or name: ".toList ++ more)
      else if c = '-' then
        if targets.isEmpty then killUsage else sendSignal e 15 targets 0
      else illegalOption c
  | targets => sendSignal e 15 targets 0

end Amalgam.Script
