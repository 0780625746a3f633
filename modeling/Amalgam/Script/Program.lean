import Amalgam.Script.Builtin
import Amalgam.Script.Utility.Characters
import Amalgam.Script.Utility.Columns
import Amalgam.Script.Utility.Compare
import Amalgam.Script.Utility.Condition
import Amalgam.Script.Utility.Count
import Amalgam.Script.Utility.Edit.Cycle
import Amalgam.Script.Utility.Environment
import Amalgam.Script.Utility.Expression
import Amalgam.Script.Utility.Gather
import Amalgam.Script.Utility.Listing
import Amalgam.Script.Utility.Names
import Amalgam.Script.Utility.Places
import Amalgam.Script.Utility.Portion
import Amalgam.Script.Utility.Print
import Amalgam.Script.Utility.Repeats
import Amalgam.Script.Utility.Rights
import Amalgam.Script.Utility.Search.Inputs
import Amalgam.Script.Utility.Sequence
import Amalgam.Script.Utility.Show
import Amalgam.Script.Utility.Sort
import Amalgam.Script.Utility.Times
import Amalgam.Script.Utility.Waiting

/-!
# Programs

The programs of the system, each in a process of its own.  A process has the descriptors and the exported
variables of the shell that starts it.
-/

namespace Amalgam.Script

/-! ### Utilities -/

def withOption (option : String) (name : String) (utility : Utility) : Utility := fun e _ args =>
  utility e name.toList (option.toList :: args)

def utilities : List (String × Utility) :=
  [("[", testTool true), ("basename", basenameTool), ("cat", catTool), ("chmod", chmodTool),
   ("cmp", cmpTool), ("cp", cpTool), ("cut", cutTool), ("dirname", dirnameTool),
   ("echo", echoTool), ("egrep", withOption "-E" "grep" grepTool), ("env", envTool), ("expr", exprTool),
   ("false", endWith 1), ("fgrep", withOption "-F" "grep" grepTool), ("grep", grepTool),
   ("head", headTool), ("kill", killCommand), ("ln", lnTool), ("ls", lsTool), ("mkdir", mkdirTool),
   ("mv", mvTool), ("nl", nlTool), ("printenv", printenvTool), ("printf", printfTool), ("pwd", pwdTool),
   ("readlink", readlinkTool), ("realpath", realpathTool), ("rev", revTool),
   ("rgrep", withOption "-r" "grep" grepTool), ("rm", rmTool), ("rmdir", rmdirTool), ("sed", sedTool),
   ("seq", seqTool), ("sleep", sleepTool), ("sort", sortTool), ("sync", endWith 0), ("tac", tacTool),
   ("tail", tailTool), ("tee", teeTool), ("test", testTool false), ("timeout", timeoutTool),
   ("touch", touchTool), ("tr", trTool), ("true", endWith 0), ("uniq", uniqTool), ("wc", wcTool),
   ("which", whichTool), ("xargs", xargsTool), ("yes", yesTool)]

/-! ### Shells -/

/-- What a shell runs. -/
inductive ShellSource where
  | text
  | input
  | file
  deriving DecidableEq, Repr

/-- Switches the options that a shell is started with, and gives the arguments after them; `fuel` bounds
their number. -/
def shellOptions : Nat → ShellSource → List Text → Run (ShellSource × List Text)
  | 0, source, rest => return (source, rest)
  | _ + 1, source, ['-', '-'] :: rest | _ + 1, source, ['-'] :: rest => return (source, rest)
  | fuel + 1, source, (sign :: c :: more) :: rest => do
    if sign = '-' ∨ sign = '+' then
      let letters := c :: more
      let later ← switchLetters (sign == '-') (letters.filter (· != 'c')) rest
      let source := if letters.contains 'c' then .text
        else if letters.contains 's' && source != .text then .input else source
      shellOptions fuel source later
    else return (source, (sign :: c :: more) :: rest)
  | _ + 1, source, rest => return (source, rest)

/-- The text that a shell is to run; its name and arguments are set. -/
def shellText (args : List Text) : Run Text := do
  let (source, operands) ← shellOptions (args.length + 1) .file args
  match source, operands with
  | .text, [] => abort "-c requires an argument".toList
  | .text, text :: rest =>
    modify fun s => { s with name := rest.headD s.name, args := rest.drop 1 }
    return text
  | .file, path :: rest =>
    match ← readFile path with
    | .error .isDirectory => return []
    | .error e => abort ("cannot open ".toList ++ path ++ ": ".toList ++ (openErrorText false e).toList)
    | .ok text =>
      modify fun s => { s with name := path, args := rest }
      return text
  | _, operands =>
    switchOption true 's'
    modify fun s => { s with args := operands }
    readAll 0

def shellProgram : Utility := fun e name args => do
  let given (s : Shell) (key : String) (value : Text) : Shell :=
    s.put key.toList { value := some value, exported := (s.vars.lookup key.toList).isSome }
  modify fun s =>
    let s := given s "OPTIND" ['1']
    let s := given s "IFS" [' ', '\t', '\n']
    let s := given s "PWD" s.currentDir
    let s := given s "PPID" (ofNat ((s.outer.head?.map Prod.fst).getD 1))
    let s := [("PS1", "# "), ("PS2", "> "), ("PS4", "+ ")].foldl
      (fun s (key, value) =>
        if (s.value? key.toList).isSome then s else given s key value.toList) s
    let s := if (s.value? "PATH".toList).isSome then s else given s "PATH" standardPath
    { s with name, line := 0, optionPlace := {} }
  tryCatch
    (do
      let text ← shellText args
      modify fun s => { s with line := 1 }
      runSource e false text)
    fun stop => if stop.isFinal then throw stop else return ()
  tryCatch (runExitTrap e) fun stop => if stop.isFinal then throw stop else return ()
  return (← get).status

/-! ### Processes -/

/-- The status of a program that cannot show what it has to show, and what it says about that. -/
def writeFailure (program : String) (cause : OsError) : Nat × Text :=
  match program with
  | "sed" =>
    let verb := if cause = .noSpace then "couldn't flush stdout" else "couldn't close stdout"
    (4, because verb.toList cause)
  | "ls" | "grep" => (2, because "write error".toList cause)
  | "wc" => (1, if cause = .noSpace then "write error".toList else because "write error".toList cause)
  | _ => (1, because "write error".toList cause)

/-- Runs a program such that it fails if it has something to show and cannot.  Only `cat` looks for a closed
output by itself. -/
def withOutput (program : String) (utility : Utility) : Utility := fun e name args => do
  match ← outputFault? with
  | none => utility e name args
  | some cause =>
    if program = "cat" ∧ cause = .badDescriptor then return ← utility e name args
    let id ← addChannel (.ofText [])
    setDescriptor 1 id
    let status ← utility e name args
    if (← written id).isEmpty then return status
    let (status, text) := writeFailure program cause
    toolFails name status text

/-- The programs that start other ones, which show something by themselves. -/
def startingPrograms : List String :=
  ["env", "timeout", "xargs"]

def programNamed? (name : String) : Option Utility :=
  if name = "sh" ∨ name = "dash" then some shellProgram
  else
    let found := utilities.lookup name
    if startingPrograms.contains name then found else found.map (withOutput name)

/-- The state in which a process starts: it has the files, the channels and the exported variables. -/
def Shell.fresh (s : Shell) : Shell :=
  { tree := s.tree
    channels := s.channels
    descriptors := s.descriptors
    name := s.name
    vars := s.vars.filter (·.2.exported)
    number := s.nextNumber
    births := s.births + 1
    outer := s.ancestors
    finished := s.finished
    arrived := s.arrived
    clock := s.clock
    deadline := s.deadline
    allowances := s.allowances
    trial := s.trial
    deferred := s.deferred }

def process (e : Engine) (name : String) (argv : List Text) : Run Ended := ExceptT.mk do
  let s ← get
  set s.fresh
  let program := (programNamed? name).getD (endWith 0)
  let result ← ExceptT.run (program e (argv.headD []) (argv.drop 1))
  let after ← get
  set (s.after after)
  match result with
  | .ok status => return .ok (.exited (status % 256))
  | .error .killed => return .ok (.killed (after.status - 128))
  | .error .broken => return .ok (.killed 13)
  | .error (.asleep wake) => return .error (.asleep wake)
  | .error .expired => return .error .expired
  | .error _ => return .ok (.exited (after.status % 256))

def startProgram (e : Engine) (path : Text) (argv : List Text) : Run (Except OsError Ended) := do
  match programAt (← get).tree maxInterpreters path argv with
  | .error fault => return .error fault
  | .ok (name, argv) => return .ok (← process e name argv)

/-- A file tree in which there are only the programs and the devices of the system. -/
def systemTree : FileTree :=
  let names := ["sh", "dash"] ++ utilities.map Prod.fst
  { entries :=
      [(["usr"], .dir), (["usr", "bin"], .dir), (["bin"], .link "usr/bin"), (["tmp"], .dir),
       (["root"], .dir)] ++ devices ++
      names.map fun name => (["usr", "bin", name], .program name)
    workdir := [] }

end Amalgam.Script
