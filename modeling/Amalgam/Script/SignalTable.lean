import Amalgam.Script.Text

/-!
# The table of signals
-/

namespace Amalgam.Script

/-- The signals by number, from zero on: the name, and what is shown when a program is ended by it. -/
def signals : List (String × String) :=
  [("EXIT", ""), ("HUP", "Hangup"), ("INT", ""), ("QUIT", "Quit"), ("ILL", "Illegal instruction"),
   ("TRAP", "Trace/breakpoint trap"), ("ABRT", "Aborted"), ("BUS", "Bus error"),
   ("FPE", "Floating point exception"), ("KILL", "Killed"), ("USR1", "User defined signal 1"),
   ("SEGV", "Segmentation fault"), ("USR2", "User defined signal 2"), ("PIPE", ""),
   ("ALRM", "Alarm clock"), ("TERM", "Terminated"), ("16", "Stack fault"), ("CHLD", ""), ("CONT", ""),
   ("STOP", ""), ("TSTP", ""), ("TTIN", ""), ("TTOU", ""), ("URG", ""),
   ("XCPU", "CPU time limit exceeded"), ("XFSZ", "File size limit exceeded"),
   ("VTALRM", "Virtual timer expired"), ("PROF", "Profiling timer expired"), ("WINCH", ""),
   ("IO", "I/O possible"), ("PWR", "Power failure"), ("SYS", "Bad system call")]

/-- The first and the last of the signals that have no meaning of their own. -/
def firstFree : Nat := 34

@[inherit_doc firstFree]
def lastFree : Nat := 64

/-- The name of a signal.  Those without a meaning are counted from the nearer end. -/
def signalName (signal : Nat) : Text :=
  match signals[signal]? with
  | some (name, _) => name.toList
  | none =>
    if signal < firstFree ∨ lastFree < signal then ofNat signal
    else if signal = firstFree then "RTMIN".toList
    else if signal = lastFree then "RTMAX".toList
    else if signal < firstFree + 16 then "RTMIN+".toList ++ ofNat (signal - firstFree)
    else "RTMAX-".toList ++ ofNat (lastFree - signal)

def signalOf? (t : Text) : Option Nat :=
  match natOf? t with
  | some n => if n < 65 then some n else none
  | none => (List.range (lastFree + 1)).find? fun n => signalName n == t.map Char.toUpper

def endText (signal : Nat) : Text :=
  match signals[signal]? with
  | some (_, text) => text.toList
  | none => if signal < firstFree then [] else "Real-time signal ".toList ++ ofNat (signal - firstFree)

/-- Do shells go on after the signal if they have no action for it? -/
def isHarmless (signal : Nat) : Bool :=
  signal == 0 || (17 ≤ signal && signal ≤ 23) || signal == 28

end Amalgam.Script
