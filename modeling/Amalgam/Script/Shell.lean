import Amalgam.Script.Channel
import Amalgam.Script.Command
import Amalgam.Script.Job
import Amalgam.Script.Allowance
import Amalgam.Script.OptionPlace
import Amalgam.Script.Pattern

/-!
# Shells

The state of a shell between two commands, and reading and writing through descriptors.  Descriptors lead to
channels, which shells share: a shell that is started by another one has the same channels, so what one
writes the other can read.
-/

namespace Amalgam.Script

/-- A variable of a shell. -/
structure Variable where
  value : Option Text := none
  exported : Bool := false
  fixed : Bool := false
  deriving DecidableEq, Repr

/-- A program that a shell has found in the directories of its search path. -/
structure KnownProgram where
  /-- The place of its directory among them. -/
  index : Nat
  /-- Has the working directory changed since? -/
  stale : Bool := false
  deriving DecidableEq, Repr

/-- How a program ended. -/
inductive Ended where
  | exited (status : Nat)
  | killed (signal : Nat)
  deriving DecidableEq, Repr

def Ended.status : Ended → Nat
  | exited status => status
  | killed signal => 128 + signal

/-- Why a command ends before its end. -/
inductive Stop where
  | exit
  /-- A fault, which ends the shell or the command. -/
  | fault
  | giveBack
  | leave (levels : Nat)
  | again (levels : Nat)
  | killed
  /-- The shell or the program has written where nobody reads. -/
  | broken
  /-- A command that is only tried has to wait, up to a point of time. -/
  | asleep (wake : Nat)
  | expired
  /-- A program has taken the place of the shell, and has ended. -/
  | replaced (ended : Ended)
  deriving DecidableEq, Repr

/-- What a shell is in the middle of.  The working directory of the tree is the shell's. -/
structure Situation where
  tree : FileTree
  channels : Array Channel := #[]
  descriptors : List (Nat × Nat) := []
  /-- The name by which the shell was started. -/
  name : Text := []
  args : List Text := []
  vars : List (Text × Variable) := []
  functions : List (Text × Command) := []
  /-- Names that stand for texts where a command may start. -/
  shortcuts : List (Text × Text) := []
  documents : List Word := []
  options : List Char := []
  status : Nat := 0
  /-- The status of the last command whose output was used in a word. -/
  inner : Nat := 0
  line : Nat := 1
  /-- The command that messages come from. -/
  speaker : Option Text := none
  /-- How many loops are around the present command. -/
  loops : Nat := 0
  /-- The variables that each function call hides, the innermost call first. -/
  hidden : List (List (Text × Option Variable)) := []
  /-- What is done when the shell ends, or is to be ended. -/
  traps : List (Text × Text) := []
  number : Nat := 4242
  /-- The number of the last command in the background. -/
  last : Option Nat := none
  /-- The commands that this shell has started in the background and knows. -/
  jobs : Jobs := []
  /-- Has a process that this shell has started ended since it looked for that? -/
  childEnded : Bool := false
  /-- The programs that the shell has found, in the order in which it found them. -/
  known : List (Text × KnownProgram) := []
  allowances : List (Char × Allowance) := []
  /-- The commands in the background that have ended, with how they ended. -/
  finished : List (Nat × Ended) := []
  /-- How many commands were started in the background. -/
  births : Nat := 0
  /-- The shells that have started this one, the innermost first: their numbers and traps. -/
  outer : List (Nat × List (Text × Text)) := []
  /-- Is this a shell of its own, which was started to run a part of a script? -/
  inner? : Bool := false
  /-- Is the command that comes next the last one of such a shell? -/
  final : Bool := false
  /-- Signals that have been sent to shells and not received yet. -/
  arrived : List (Nat × Nat) := []
  /-- The time since the start, in microseconds. -/
  clock : Nat := 0
  /-- When the programs that run have to end. -/
  deadline : Option Nat := none
  /-- Is a command only tried, so that it stops where it would have to wait? -/
  trial : Bool := false
  /-- How far the arguments were read as options. -/
  optionPlace : OptionPlace := {}
  /-- The status that the shell ends with, once it is about to end. -/
  leaving : Option Nat := none

/-- A command in the background that waits. -/
structure Deferred where
  number : Nat
  wake : Nat
  body : Command
  start : Situation

/-- A shell between two commands. -/
structure Shell extends Situation where
  deferred : List Deferred := []

/-- When shells start, in microseconds since the beginning of 1970: the beginning of 2026. -/
def startTime : Int := 1767225600 * 1000000

/-- How long what was there before is older than what a shell makes at once, in microseconds. -/
def startDelay : Nat := 10000

def timeAt (clock : Nat) : Int :=
  startTime + startDelay + clock

abbrev Run := ExceptT Stop (StateM Shell)

/-- How many turns a loop may take; a loop that takes more does not end. -/
def maxTurns : Nat := 1000000

/-! ### Channels -/

def addChannel (channel : Channel) : Run Nat := do
  let s ← get
  set { s with channels := s.channels.push channel }
  return s.channels.size

def setDescriptor (fd channel : Nat) : Run Unit :=
  modify fun s => { s with descriptors := (fd, channel) :: s.descriptors.filter (·.1 != fd) }

def closeDescriptor (fd : Nat) : Run Unit :=
  modify fun s => { s with descriptors := s.descriptors.filter (·.1 != fd) }

def channelOf? (fd : Nat) : Run (Option (Nat × Channel)) := do
  let s ← get
  return (s.descriptors.lookup fd).bind fun id => (s.channels[id]?).map fun channel => (id, channel)

def setChannel (id : Nat) (channel : Channel) : Run Unit :=
  modify fun s => { s with channels := s.channels.setIfInBounds id channel }

/-- A text with another text written over it from a position on. -/
def overwrite (old : Text) (position : Nat) (t : Text) : Text :=
  let gap := List.replicate (position - old.length) (Char.ofNat 0)
  (old ++ gap).take position ++ t ++ old.drop (position + t.length)

def contentAt (tree : FileTree) (loc : Location) : Text :=
  match tree.readAt loc with
  | .ok bytes => ofBytes bytes
  | .error _ => []

def writeChannel (id : Nat) (t : Text) : Run Unit := do
  let s ← get
  match s.channels[id]? with
  | none => return ()
  | some (.stream stream) =>
    setChannel id (.stream (stream.write t))
    if stream.room.any (· < t.length) then throw .broken
  | some (.file loc position access) =>
    let old := contentAt s.tree loc
    let start := if access = .append then old.length else position
    match s.tree.entry? loc, s.tree.writeAt loc (toBytes (overwrite old start t)) with
    | some _, .ok tree =>
      set { s with tree }
      setChannel id (.file loc (start + t.length) access)
    | _, _ => return ()

/-- Why nothing can be written to a descriptor, if there is a reason. -/
def writeFault? (fd : Nat) : Run (Option OsError) := do
  match ← channelOf? fd with
  | none => return some .badDescriptor
  | some (_, .file loc _ access) =>
    if access = .read then return some .badDescriptor
    return if (← get).tree.entry? loc = some .full then some .noSpace else none
  | some (_, .stream _) => return none

/-- Why nothing can be shown, if there is a reason. -/
def outputFault? : Run (Option OsError) :=
  writeFault? 1

def writeTo (fd : Nat) (t : Text) : Run Bool := do
  if (← writeFault? fd).isSome then return false
  match (← get).descriptors.lookup fd with
  | none => return false
  | some id =>
    writeChannel id t
    return true

def say (t : Text) : Run Unit := do
  let _ ← writeTo 1 t

def sayError (t : Text) : Run Unit := do
  let _ ← writeTo 2 t

def written (id : Nat) : Run Text := do
  match (← get).channels[id]? with
  | some (.stream stream) => return stream.text
  | _ => return []

def remaining (fd : Nat) : Run Text := do
  match ← channelOf? fd with
  | none => return []
  | some (id, .stream stream) =>
    let stream := stream.gathered
    setChannel id (.stream stream)
    return stream.ready
  | some (_, .file loc position access) =>
    let tree := (← get).tree
    return if access.reads then (contentAt tree loc).drop position else []

/-- Leaves the first `count` characters behind that can be read from a descriptor. -/
def advanceBy (fd count : Nat) : Run Unit := do
  match ← channelOf? fd with
  | none => return ()
  | some (id, .stream stream) => setChannel id (.stream (stream.drop count))
  | some (id, .file loc position access) => setChannel id (.file loc (position + count) access)

/-- Notes that a reader has come to the end of what can be read from a descriptor. -/
def noteEnd (fd : Nat) : Run Unit := do
  match ← channelOf? fd with
  | some (id, .stream stream) =>
    if stream.cut then setChannel id (.stream { stream with missed := true })
  | _ => return ()

def readAll (fd : Nat) : Run Text := do
  let text ← remaining fd
  advanceBy fd text.length
  noteEnd fd
  return text

def readLine (fd : Nat) : Run Text := do
  let text ← remaining fd
  match text.dropWhile (· != '\n') with
  | [] =>
    advanceBy fd text.length
    noteEnd fd
    return text
  | _ :: _ =>
    let line := asLine (text.takeWhile (· != '\n'))
    advanceBy fd line.length
    return line

/-! ### Messages -/

/-- A message with the name of the shell, the line and the command in front. -/
def Shell.message (s : Shell) (text : Text) : Text :=
  let speaker := match s.speaker with
    | some name => name ++ ": ".toList
    | none => []
  asLine (s.name ++ ": ".toList ++ ofNat s.line ++ ": ".toList ++ speaker ++ text)

def complain (text : Text) : Run Unit := do
  sayError ((← get).message text)

def setStatus (status : Nat) : Run Unit :=
  modify fun s => { s with status }

def abort {α : Type} (text : Text) : Run α := do
  complain text
  setStatus 2
  throw .fault

/-! ### Processes -/

/-- Is the present command the last one of a shell of its own?  Those inside of it are not, unless that is said. -/
def takeFinal : Run Bool := do
  let s ← get
  set { s with final := false }
  return s.final

/-- Says whether the next command is the last one of a shell of its own. -/
def setFinal (final : Bool) : Run Unit :=
  modify fun s => { s with final }

/-- Notes that a process which the shell has waited for has ended. -/
def noteChild : Run Unit :=
  modify fun s => { s with jobs := s.jobs.released, childEnded := true }

/-! ### Variables -/

def Shell.has (s : Shell) (option : Char) : Bool :=
  s.options.contains option

def Shell.value? (s : Shell) (name : Text) : Option Text :=
  (s.vars.lookup name).bind Variable.value

def Shell.put (s : Shell) (name : Text) (v : Variable) : Shell :=
  { s with vars := (name, v) :: s.vars.filter (·.1 != name) }

def storeVariable (name value : Text) : Run Unit := do
  let s ← get
  let v := (s.vars.lookup name).getD {}
  if v.fixed then abort (name ++ ": is read only".toList)
  set (s.put name { v with value := some value, exported := v.exported || s.has 'a' })

/-- The variable that shows how far the arguments were read as options. -/
def optionIndexName : Text :=
  "OPTIND".toList

def moveOptionPlace (value : Text) : Run Unit := do
  match OptionPlace.ofText? value with
  | some optionPlace => modify fun s => { s with optionPlace }
  | none => abort ("Illegal number: ".toList ++ value)

/-- The variable that says in which directories programs are looked for. -/
def searchPathName : Text :=
  "PATH".toList

def noteValue (name value : Text) : Run Unit := do
  if name == optionIndexName then moveOptionPlace value
  if name == searchPathName then modify fun s => { s with known := [] }

/-- Gives a variable a value, which may change how the shell goes on. -/
def setVariable (name value : Text) : Run Unit := do
  let fixed := (((← get).vars.lookup name).map Variable.fixed).getD false
  if !fixed then noteValue name value
  storeVariable name value

def exportVariable (name : Text) : Run Unit :=
  modify fun s => s.put name { (s.vars.lookup name).getD {} with exported := true }

/-- The characters at which values are split into words. -/
def Shell.separators (s : Shell) : Text :=
  (s.value? "IFS".toList).getD [' ', '\t', '\n']

def Shell.joinedArgs (s : Shell) : Text :=
  match (s.value? "IFS".toList).getD [' '] with
  | [] => s.args.flatten
  | c :: _ => joinWith c s.args

def optionLetters : Text :=
  "efIimnsxvVECabu".toList

def Shell.parameter? (s : Shell) (name : Text) : Option Text :=
  match natOf? name with
  | some 0 => some s.name
  | some (n + 1) => s.args[n]?
  | none =>
    match name with
    | ['#'] => some (ofNat s.args.length)
    | ['?'] => some (ofNat s.status)
    | ['$'] => some (ofNat s.number)
    | ['!'] => s.last.map ofNat
    | ['-'] => some (optionLetters.reverse.filter s.options.contains)
    | ['@'] | ['*'] => some s.joinedArgs
    | _ => s.value? name

/-! ### Files -/

/-- The descriptor that a path stands for.  A path may also lead to the output or the error output through
links. -/
def descriptorNamed? (tree : FileTree) (path : Text) : Option Nat :=
  match String.ofList path with
  | "/dev/stdin" => some 0
  | "/dev/stdout" => some 1
  | "/dev/stderr" => some 2
  | _ =>
    if "/dev/fd/".toList.isPrefixOf path then natOf? (path.drop 8)
    else
      match tree.locate (toPath path) with
      | .ok loc =>
        if loc = outputStream then some 1 else if loc = errorStream then some 2 else none
      | .error _ => none

def readFile (path : Text) : Run (Except OsError Text) := do
  match descriptorNamed? (← get).tree path with
  | some fd => return .ok (← readAll fd)
  | none => return ((← get).tree.read (toPath path)).map ofBytes

/-- The content of the file at a path; of one that does not end, no more than a number of bytes is needed. -/
def readFileUpTo (count : Option Nat) (path : Text) : Run (Except OsError Text) := do
  match count, (← get).tree.entryAt? (toPath path) with
  | some n, some .endless => return .ok (List.replicate n (Char.ofNat 0))
  | _, _ => readFile path

def RedirectKind.access : RedirectKind → Access
  | .read => .read
  | .append => .append
  | .readWrite => .both
  | _ => .write

def openFile (path : Text) (kind : RedirectKind) : Run (Except OsError Nat) := do
  match descriptorNamed? (← get).tree path with
  | some fd =>
    match (← get).descriptors.lookup fd with
    | some id => return .ok id
    | none => return .error .notFound
  | none =>
    let tree := (← get).tree
    match kind with
    | .read =>
      match tree.locate (toPath path) with
      | .ok loc => return .ok (← addChannel (.file loc 0 .read))
      | .error e => return .error e
    | _ =>
      match tree.target (toPath path) with
      | .error e => return .error e
      | .ok loc =>
        let fresh := (tree.entry? loc).isNone
        if fresh || kind == .write || kind == .overwrite then
          match tree.writeAt loc [] with
          | .ok tree => modify fun s => { s with tree }
          | .error e => return .error e
        return .ok (← addChannel (.file loc 0 kind.access))

end Amalgam.Script
