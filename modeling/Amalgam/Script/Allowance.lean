import Amalgam.Script.Text

/-!
# Allowances

How much of something a program may use.  A limit has a value that is in force and one up to which a program
may raise it; without a value there is no limit.
-/

namespace Amalgam.Script

/-- How much a program may use. -/
structure Allowance where
  soft : Option Nat := none
  /-- The value up to which that may be raised. -/
  hard : Option Nat := none
  deriving DecidableEq, Repr

/-- A kind of limit. -/
structure AllowanceKind where
  letter : Char
  title : String
  start : Allowance := {}

def allowanceKinds : List AllowanceKind :=
  [{ letter := 't', title := "time(seconds)" }, { letter := 'f', title := "file(blocks)" },
   { letter := 'd', title := "data(kbytes)" },
   { letter := 's', title := "stack(kbytes)", start := { soft := some 8192 } },
   { letter := 'c', title := "coredump(blocks)", start := { soft := some 0 } },
   { letter := 'm', title := "memory(kbytes)" },
   { letter := 'l', title := "locked memory(kbytes)", start := { soft := some 8192, hard := some 8192 } },
   { letter := 'p', title := "process" },
   { letter := 'n', title := "nofiles", start := { soft := some 1048576, hard := some 1048576 } },
   { letter := 'v', title := "vmemory(kbytes)" }, { letter := 'w', title := "locks" },
   { letter := 'r', title := "rtprio", start := { soft := some 0, hard := some 0 } }]

def isWithin (value bound : Option Nat) : Bool :=
  match value, bound with
  | _, none => true
  | none, some _ => false
  | some n, some m => n ≤ m

/-- The limit with another value, or why it cannot have it: the upper value is never raised. -/
def Allowance.set (limit : Allowance) (soft hard : Bool) (value : Option Nat) : Except String Allowance :=
  let new : Allowance := { soft := if soft then value else limit.soft, hard := if hard then value else limit.hard }
  if !isWithin new.soft new.hard then .error "Invalid argument"
  else if !isWithin new.hard limit.hard then .error "Operation not permitted"
  else .ok new

def allowanceText : Option Nat → Text
  | some n => ofNat n
  | none => "unlimited".toList

end Amalgam.Script
