import Amalgam.Script.Grammar
import Amalgam.Script.Shell
import Amalgam.Script.SignalTable

/-!
# Processes

A script is run line by line, as far as it can be read.  Some commands run in a shell of their own, which
starts as a copy of the present one: what such a shell does to files and channels stays, all else is
forgotten but the status that it ends with.

A command in the background is tried at once.  If it has to wait, it is put off until the shell waits as
long, or waits for it.

What running a command means is given as a value of `Engine`, whose knot is tied where commands are run.
-/

namespace Amalgam.Script

/-- What running commands and starting programs means.  The flag says that the status of the command is
looked at, so that a failure does not end the shell. -/
structure Engine where
  run : Bool → Command → Run Unit
  /-- Starts the program at a path, with the name that it is called by and its arguments. -/
  start : Text → List Text → Run (Except OsError Ended)

/-! ### Scripts -/

/-- Runs the lines of a script from a place on.  `idle` says that there was no command so far, and `fuel`
bounds the number of lines. -/
def runLines (e : Engine) (tested : Bool) : Nat → Bool → Source → Run Unit
  | 0, _, _ => return ()
  | fuel + 1, idle, source => do
    let s ← get
    let echo (rest : Text) : Run Unit := do
      if s.has 'v' then sayError (source.rest.take (source.rest.length - rest.length))
    match readScriptLine { source with documents := s.documents, shortcuts := s.shortcuts } with
    | .error fault =>
      echo []
      modify fun s => { s with line := fault.line }
      abort ("Syntax error: ".toList ++ fault.text.toList)
    | .ok (commands, more, next) =>
      echo next.rest
      modify fun s => { s with documents := next.documents }
      if !commands.isEmpty then e.run tested (.series commands)
      if more then runLines e tested fuel (idle && commands.isEmpty) next
      else if idle && commands.isEmpty then setStatus 0

/-- Runs a script, whose first line has the number one, as far as it can be read. -/
def runSource (e : Engine) (tested : Bool) (text : Text) : Run Unit := do
  runLines e tested (text.length + 1) true (sourceOf text 1 (← get).documents (← get).shortcuts)

/-- The name under which the action is kept that is done when a shell ends. -/
def exitTrap : Text :=
  "EXIT".toList

/-- Is a shell that stops like this not able to do anything more? -/
def Stop.isFinal : Stop → Bool
  | killed | broken | asleep _ | expired | replaced _ => true
  | _ => false

/-- Does what is to be done when a shell ends.  The status stays, unless the action ends the shell with
another one. -/
def runExitTrap (e : Engine) : Run Unit := do
  let s ← get
  match s.traps.lookup exitTrap with
  | none => return ()
  | some action =>
    let status := s.status
    set { s with traps := s.traps.filter (·.1 != exitTrap), leaving := some status }
    tryCatch
      (do
        runSource e false action
        setStatus status)
      fun stop =>
        if stop.isFinal then throw stop
        else if stop = .exit then return ()
        else setStatus status

/-! ### Shells of their own -/

def showEnd? (ended : Ended) : Run Unit := do
  match ended with
  | .killed signal =>
    let text := endText signal
    if !text.isEmpty then sayError (asLine text)
  | .exited _ => return ()

/-- The state after something that ran in a state of its own: what it did to files and channels stays, and so
does what it knows about other processes. -/
def Shell.after (s inner : Shell) : Shell :=
  { s with
    tree := { inner.tree with workdir := s.tree.workdir, mask := s.tree.mask }
    channels := inner.channels
    finished := inner.finished
    births := inner.births
    arrived := inner.arrived
    clock := inner.clock
    deferred := inner.deferred }

/-- The shells that have started something that this shell starts. -/
def Shell.ancestors (s : Shell) : List (Nat × List (Text × Text)) :=
  if s.inner? then s.outer else (s.number, s.traps) :: s.outer

/-- The traps that a shell of its own keeps: signals that are passed over stay so. -/
def keptTraps (traps : List (Text × Text)) : List (Text × Text) :=
  traps.filter fun (name, action) => action.isEmpty && name != exitTrap

def brokenEnd : Ended :=
  .killed 13

/-- Runs an action to its end in a shell of its own, and says how that shell ends.  What it does to files and
channels stays. -/
def isolated (e : Engine) (body : Run Unit) : Run Ended := ExceptT.mk do
  let s ← get
  set { s with
    traps := keptTraps s.traps, outer := s.ancestors, inner? := true, final := true, jobs := []
    childEnded := false }
  let result ← match ← ExceptT.run body with
    | .error stop => if stop.isFinal then pure (.error stop) else ExceptT.run (runExitTrap e)
    | .ok () => ExceptT.run (runExitTrap e)
  let after ← get
  match result with
  | .error .broken =>
    set (s.after after)
    return .ok brokenEnd
  | .error (.replaced ended) =>
    set (s.after after)
    return .ok ended
  | .error stop =>
    if stop.isFinal then
      set { s.after after with status := after.status }
      return .error stop
    else
      set (s.after after)
      return .ok (.exited (after.status % 256))
  | .ok () =>
    set (s.after after)
    return .ok (.exited (after.status % 256))

/-! ### The background -/

/-- Runs a command that has waited in the background, to its end. -/
def resume (e : Engine) (job : Deferred) : Run Unit := do
  let s ← get
  let start := job.start
  set ({ start with
    tree := { s.tree with workdir := start.tree.workdir, mask := start.tree.mask }
    channels := s.channels
    finished := s.finished
    births := s.births
    arrived := s.arrived
    trial := false
    deferred := s.deferred.filter (·.number != job.number) } : Shell)
  let ended ← isolated e (e.run false job.body)
  let inner ← get
  set { s.after inner with
    finished := (job.number, ended) :: inner.finished
    childEnded := true
    clock := max s.clock inner.clock }

/-- Of the commands that wait in the background, the one that goes on first. -/
def firstDue (jobs : List Deferred) : Option Deferred :=
  jobs.foldl
    (fun found job =>
      match found with
      | some other => if job.wake < other.wake then some job else found
      | none => some job)
    none

/-- Runs the commands that wait in the background and are meant, each when its time has come; `fuel` bounds
their number. -/
def settle (e : Engine) (meant : Deferred → Bool) : Nat → Run Unit
  | 0 => return ()
  | fuel + 1 => do
    match firstDue ((← get).deferred.filter meant) with
    | none => return ()
    | some job =>
      resume e job
      settle e meant fuel

/-- How many commands in the background may follow each other. -/
def maxJobs : Nat := 10000

def setClock (clock : Nat) : Run Unit :=
  modify fun s => { s with clock, tree := { s.tree with now := some (timeAt clock) } }

/-- Waits for some time.  Commands in the background go on when their time has come. -/
def pause (e : Engine) (duration : Nat) : Run Unit := do
  let s ← get
  let wake := s.clock + duration
  match s.deadline with
  | some limit =>
    if limit < wake then
      setClock limit
      throw .expired
  | none => pure ()
  if s.trial then throw (.asleep wake)
  settle e (·.wake ≤ wake) maxJobs
  setClock wake

def settleHolders (e : Engine) (id : Nat) : Run Unit :=
  settle e (fun job => job.start.descriptors.any (·.2 == id)) maxJobs

/-- The numbers of processes that a shell starts come after its own. -/
def Shell.nextNumber (s : Shell) : Nat :=
  s.number + 2 + s.births

/-- How many commands a command has, each of which reads what the one before it writes. -/
def Command.stages : Command → Nat
  | .pipe commands => commands.length
  | _ => 1

/-- Tries a command in the background; one that has to wait is put off.  It has no input. -/
def runBackground (e : Engine) (command : Command) : Run Unit := ExceptT.mk do
  let before ← get
  let number := before.nextNumber
  let s := { before with
    births := before.births + 1, last := some number, status := 0
    jobs := before.jobs.add number command.stages }
  let start := { s with
    channels := s.channels.push (.ofText [])
    descriptors := (0, s.channels.size) :: s.descriptors.filter (·.1 != 0) }
  set { start with trial := true }
  match ← ExceptT.run (isolated e (e.run false command)) with
  | .error (.asleep wake) =>
    if s.trial then return .error (.asleep wake)
    set { s with
      channels := start.channels
      deferred := s.deferred ++ [{ number, wake, body := command, start := start.toSituation : Deferred }] }
    return .ok ()
  | .error stop => return .error stop
  | .ok ended =>
    let now ← get
    set { s.after now with finished := (number, ended) :: now.finished, childEnded := true }
    return .ok ()

end Amalgam.Script
