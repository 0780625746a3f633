import Amalgam.FileTree.Streams
import Amalgam.Script.Text

/-!
# Channels

What a descriptor leads to.  A **stream** is a channel between commands: what one of them writes the other
can read, in the same order.  Commands run one after the other, so a stream holds all that is written until
it is read; one with a bound takes no more than that, and remembers that there would have been more.
-/

namespace Amalgam.Script

/-- Texts on their way from one command to another. -/
structure Stream where
  ready : Text := []
  /-- What was written after that, the last first. -/
  later : List Text := []
  /-- How many more characters it takes, if there is a bound. -/
  room : Option Nat := none
  cut : Bool := false
  /-- A reader has come to the end, although more would have been written. -/
  missed : Bool := false

namespace Stream

def text (s : Stream) : Text :=
  s.ready ++ s.later.reverse.flatten

/-- With everything that can be read in one piece. -/
def gathered (s : Stream) : Stream :=
  if s.later.isEmpty then s else { s with ready := s.text, later := [] }

def write (s : Stream) (t : Text) : Stream :=
  match s.room with
  | none => { s with later := t :: s.later }
  | some room =>
    if t.length ≤ room then { s with later := t :: s.later, room := some (room - t.length) }
    else { s with later := t.take room :: s.later, room := some 0, cut := true }

def drop (s : Stream) (count : Nat) : Stream :=
  { s with ready := s.text.drop count, later := [] }

end Stream

/-- What a file was opened for. -/
inductive Access where
  | read
  | write
  | append
  | both
  deriving DecidableEq, Repr

def Access.reads (a : Access) : Bool :=
  a == .read || a == .both

/-- What a descriptor leads to. -/
inductive Channel where
  | stream (s : Stream)
  | file (loc : Location) (position : Nat) (access : Access)

def Channel.ofText (t : Text) : Channel :=
  .stream { ready := t }

end Amalgam.Script
