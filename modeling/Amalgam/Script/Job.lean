import Amalgam.Script.Text

/-!
# Jobs

The commands that a shell has started in the background and still knows.  Each has a slot, the least that is
free when it starts; the slot of a job that has been waited for is free as soon as another one is needed.
-/

namespace Amalgam.Script

/-- A command in the background. -/
structure Job where
  slot : Nat
  number : Nat
  /-- How many commands it has, each of which reads what the one before it writes. -/
  stages : Nat := 1
  waited : Bool := false
  deriving DecidableEq, Repr

abbrev Jobs := List Job

def freeSlot (jobs : Jobs) : Nat :=
  let taken (slot : Nat) : Bool := jobs.any fun job => job.slot == slot && !job.waited
  ((List.range (jobs.length + 1)).find? fun i => !taken (i + 1)).getD jobs.length + 1

/-- The jobs after a command has taken a slot for some time. -/
def Jobs.released (jobs : Jobs) : Jobs :=
  jobs.filter (·.slot != freeSlot jobs)

def Jobs.add (jobs : Jobs) (number stages : Nat) : Jobs :=
  { slot := freeSlot jobs, number, stages } :: jobs.released

def Jobs.waitedFor (jobs : Jobs) (meant : Job → Bool) : Jobs :=
  jobs.map fun job => if meant job then { job with waited := true } else job

/-- The job that a text means, or why there is none.  After a percent sign stands a slot or a sign for one of
the last two jobs. -/
def jobNamed (jobs : Jobs) (t : Text) : Except Text Job :=
  let found (job : Option Job) (fault : Text) : Except Text Job := match job with
    | some job => .ok job
    | none => .error fault
  let unknown := "No such job: ".toList ++ t
  match t with
  | ['%'] | ['%', '%'] | ['%', '+'] => found jobs.head? "No current job".toList
  | ['%', '-'] => found jobs[1]? "No previous job".toList
  | '%' :: digits =>
    match natOf? digits with
    | some slot => found (jobs.find? (·.slot == slot)) unknown
    | none => .error unknown
  | _ => .error unknown

end Amalgam.Script
