import Amalgam.Script.Builtin.Control

/-!
# Commands for jobs

Commands of a shell that wait for jobs and show them.
-/

namespace Amalgam.Script

def jobOrAbort (t : Text) : Run Job := do
  match jobNamed (← get).jobs t with
  | .ok job => return job
  | .error fault => abort fault

/-! ### Waiting -/

def interrupted? : Run (Option Nat) := do
  let s ← get
  if s.inner? then return none
  return s.nextArrived?.map (128 + ·)

def noteWaited (meant : Job → Bool) : Run Unit :=
  modify fun s => { s with jobs := s.jobs.waitedFor meant }

def waitTarget (t : Text) : Run (Option Job) := do
  match t with
  | '%' :: _ => some <$> jobOrAbort t
  | _ =>
    let number ← countArgument t
    return (← get).jobs.find? (·.number == number)

/-- Waits for commands in the background, and gives the status of the last one. -/
def waitCommand : Utility := fun e _ args => do
  let (_, operands) ← leadingOptions "" args
  if operands.isEmpty then
    let s ← get
    settle e (fun job => s.jobs.any (·.number == job.number)) maxJobs
    noteWaited fun _ => true
    return (← interrupted?).getD 0
  let rec each : List Text → Nat → Run Nat
    | [], status => return status
    | t :: rest, status => do
      match ← waitTarget t with
      | none => each rest status
      | some job =>
        settle e (·.number == job.number) 1
        match ← interrupted? with
        | some status => return status
        | none =>
          noteWaited (· == job)
          let ended := ((← get).finished.lookup job.number).getD (.exited 127)
          showEnd? ended
          each rest ended.status
  each operands 127

/-! ### Showing -/

def Job.state (job : Job) (finished : List (Nat × Ended)) : Text :=
  match finished.lookup job.number with
  | none => "Running".toList
  | some (.exited 0) => "Done".toList
  | some (.exited status) => "Done(".toList ++ ofNat status ++ [')']
  | some (.killed signal) => endText signal

def jobWidth : Nat := 33

def Shell.jobLine (s : Shell) (numbered : Bool) (job : Job) : Text :=
  let mark := if s.jobs.head? = some job then '+' else if s.jobs[1]? = some job then '-' else ' '
  let number := if numbered then ofNat job.number ++ [' '] else []
  let start := '[' :: ofNat job.slot ++ "] ".toList ++ mark :: ' ' :: number ++ job.state s.finished
  let pipes := (List.replicate (job.stages - 1) " | ".toList).flatten
  asLine (start ++ List.replicate (max 1 (jobWidth - start.length)) ' ' ++ pipes)

def showJob (options : Text) (job : Job) : Run Unit := do
  let s ← get
  if options.getLast? = some 'p' then say (asLine (ofNat job.number))
  else say (s.jobLine (options.getLast? == some 'l') job)
  if (s.finished.lookup job.number).isSome then
    modify fun s => { s with jobs := s.jobs.filter (· != job) }

def jobsCommand : Utility := fun _ _ args => do
  let (options, operands) ← leadingOptions "lp" args
  if operands.isEmpty then
    for job in (← get).jobs do
      showJob options job
  for t in operands do
    showJob options (← jobOrAbort t)
  return 0

def resumeCommand : Utility := fun _ _ args => do
  let (_, operands) ← leadingOptions "" args
  let name := operands.headD "(null)".toList
  let _ ← jobOrAbort (operands.headD ['%'])
  abort ("job ".toList ++ name ++ " not created under job control".toList)

end Amalgam.Script
