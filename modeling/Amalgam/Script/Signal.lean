import Amalgam.Script.Process

/-!
# Signals

Signals end a shell, unless it has an action for them.
-/

namespace Amalgam.Script

def die {α : Type} (signal : Nat) : Run α := do
  setStatus (128 + signal)
  throw .killed

def receive (e : Engine) (signal : Nat) : Run Unit := do
  let s ← get
  let action := if signal = 9 ∨ signal = 19 then none else s.traps.lookup (signalName signal)
  match action with
  | some text =>
    runSource e false text
    setStatus s.status
  | none => if isHarmless signal then return () else die signal

def interruptSignal : Nat := 2

/-- Of the signals that have been sent to the shell meanwhile, the one that it receives first: one that ends it,
and an interrupt only after what it waits for; then the one with the least number. -/
def Shell.nextArrived? (s : Shell) : Option Nat :=
  let own := (s.arrived.filter (·.1 == s.number)).map Prod.snd
  let deadly := own.filter fun n => (s.traps.lookup (signalName n)).isNone && !isHarmless n
  deadly.find? (· != interruptSignal) <|> deadly.head? <|> own.min?

/-- Does what the shell does with the signals that have been sent to it meanwhile; `fuel` bounds their
number. -/
def receiveAll (e : Engine) : Nat → Run Unit
  | 0 => return ()
  | fuel + 1 => do
    let s ← get
    match s.nextArrived? with
    | none => return ()
    | some signal =>
      set { s with arrived := s.arrived.filter (· != (s.number, signal)) }
      receive e signal
      receiveAll e fuel

/-- The signal that a shell receives when a process ends that it has started. -/
def childSignal : Nat := 17

/-- Does what the shell does with the signals that have been sent to it meanwhile, and with the end of processes
that it has started. -/
def receiveArrived (e : Engine) : Run Unit := do
  if (← get).childEnded then
    modify fun s => { s with childEnded := false }
    receive e childSignal
  let s ← get
  if !s.inner? && !s.arrived.isEmpty then receiveAll e s.arrived.length

end Amalgam.Script
