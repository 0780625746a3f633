import Amalgam.Script.Builtin.Control
import Amalgam.Script.Utility

/-!
# Variables of programs

Programs that show the variables that they were given, and that start other programs with changed ones.
-/

namespace Amalgam.Script

/-! ### Several arguments in one -/

/-- What is between two places of a text that holds several arguments. -/
structure WordSplit where
  words : List Text := []
  word : Option Text := none
  single : Bool := false
  double : Bool := false

def WordSplit.add (w : WordSplit) (c : Char) : WordSplit :=
  { w with word := some (c :: w.word.getD []) }

def WordSplit.cut (w : WordSplit) : WordSplit :=
  match w.word with
  | some word => { w with words := w.words ++ [word.reverse], word := none }
  | none => w

/-- The arguments that a text holds, with the values of variables; `fuel` bounds its length. -/
def splitWords (value : Text → Option Text) : Nat → WordSplit → Text → Except Text (List Text)
  | 0, w, _ => .ok w.cut.words
  | _ + 1, w, [] =>
    if w.single || w.double then .error "no terminating quote in -S string".toList else .ok w.cut.words
  | fuel + 1, w, c :: rest =>
    let go (w : WordSplit) (rest : Text) := splitWords value fuel w rest
    let started : WordSplit := { w with word := some (w.word.getD []) }
    if c = '\'' ∧ !w.double then go { started with single := !w.single } rest
    else if c = '"' ∧ !w.single then go { started with double := !w.double } rest
    else if isSpace c ∧ !w.single ∧ !w.double then go w.cut rest
    else if c = '#' ∧ w.word.isNone then .ok w.words
    else if c = '\\' then
      match rest with
      | [] => .error "invalid backslash at end of string in -S".toList
      | d :: later =>
        if w.single ∧ d ≠ '\\' ∧ d ≠ '\'' then go (w.add c) rest
        else if "\"#$'\\".toList.contains d then go (w.add d) later
        else
          match d with
          | '_' => if w.double then go (w.add ' ') later else go w.cut later
          | 'c' =>
            if w.double then .error "'\\c' must not appear in double-quoted -S string".toList
            else .ok w.cut.words
          | 'f' => go (w.add (Char.ofNat 12)) later
          | 'n' => go (w.add '\n') later
          | 'r' => go (w.add '\r') later
          | 't' => go (w.add '\t') later
          | 'v' => go (w.add (Char.ofNat 11)) later
          | _ => .error ("invalid sequence '\\".toList ++ d :: "' in -S".toList)
    else if c = '$' ∧ !w.single then
      let refused := .error ("only $\x7bVARNAME\x7d expansion is supported, error at: ".toList ++ c :: rest)
      match rest with
      | '{' :: later =>
        let name := later.takeWhile fun c => c.isAlphanum || c == '_'
        match later.drop name.length with
        | '}' :: after =>
          if name.isEmpty || name.head?.any Char.isDigit then refused
          else match value name with
            | some text => go (text.foldl WordSplit.add started) after
            | none => go w after
        | _ => refused
      | _ => refused
    else go (w.add c) rest

/-! ### Plans -/

/-- How variables are changed before a program starts. -/
structure EnvPlan where
  clear : Bool := false
  /-- A zero byte stands in for the end of a line. -/
  zero : Bool := false
  unset : List Text := []
  dir : Option Text := none
  verbose : Bool := false

def envSpec : OptionSpec :=
  { flags := "i0v", valued := "uCS",
    long := [.same "ignore-environment" 'i', .same "null" '0', .same "unset" 'u', .same "chdir" 'C',
      .same "split-string" 'S', .same "debug" 'v', .attached "block-signal", .attached "default-signal",
      .attached "ignore-signal", .flag "list-signal-handling"] }

/-- What is wrong with the arguments of the program that changes variables. -/
inductive EnvFault where
  | option (fault : OptionFault)
  | text (t : Text)

/-- The plan that arguments give, and the arguments after the options; `fuel` bounds their number.  A text
with several arguments is split where it stands. -/
def readEnvPlan (value : Text → Option Text) :
    Nat → EnvPlan → List Text → Except EnvFault (EnvPlan × List Text)
  | 0, p, args => .ok (p, args)
  | _ + 1, p, [] => .ok (p, [])
  | fuel + 1, p, arg :: rest =>
    let use (read : Except OptionFault (List (String × Text) × List Text)) :
        Except EnvFault (EnvPlan × List Text) :=
      match read with
      | .error fault => .error (.option fault)
      | .ok (given, rest) =>
        let p := given.foldl
          (fun (p : EnvPlan) (key, text) =>
            match key with
            | "i" => { p with clear := true }
            | "0" => { p with zero := true }
            | "u" => { p with unset := p.unset ++ [text] }
            | "C" => { p with dir := some text }
            | "v" => { p with verbose := true }
            | _ => p) p
        match given.lookup "S" with
        | none => readEnvPlan value fuel p rest
        | some text =>
          match splitWords value (text.length + 1) {} text with
          | .ok words => readEnvPlan value fuel p (words ++ rest)
          | .error text => .error (.text text)
    match arg with
    | ['-', '-'] => .ok (p, rest)
    | ['-'] => .ok ({ p with clear := true }, rest)
    | '-' :: '-' :: word => use (parseLong envSpec rest word)
    | '-' :: c :: letters => use (parseLetters envSpec rest (c :: letters))
    | _ => .ok (p, arg :: rest)

/-! ### Starting -/

def startNamed (e : Engine) (argv : List Text) : Run (Except OsError Ended) := do
  let program := argv.headD []
  if program.isEmpty then return .error .notFound
  startFirst e argv .notFound (candidates (← get).toolPath program)

/-- Runs a program that another one starts, and ends as it ends; `refuse` says what happens if it cannot be
started. -/
def startTool (e : Engine) (argv : List Text) (refuse : OsError → Run Nat) : Run Nat := do
  match ← startNamed e argv with
  | .ok (.exited status) => return status
  | .ok (.killed signal) => die signal
  | .error fault => refuse fault

def leadingAssignments (args : List Text) : List Text × List Text :=
  (args.takeWhile (·.contains '='), args.dropWhile (·.contains '='))

def sayVariables (stop : Char) : Run Unit := do
  for (key, v) in (← get).vars.reverse do
    match v.value with
    | some value => say (key ++ '=' :: value ++ [stop])
    | none => pure ()

def envTool : Utility := fun e name args => do
  let s ← get
  match readEnvPlan s.value? (args.length + 1000) {} args with
  | .error (.option .information) =>
    say (asLine name)
    return 0
  | .error (.option fault) =>
    toolSays name fault.text
    match fault with
    | .unknown c =>
      if isSpace c then toolSays name "use -[v]S to pass options in shebang lines".toList
    | _ => pure ()
    seeHelp name
    return 125
  | .error (.text text) => toolFails name 125 text
  | .ok (p, rest) =>
    let (assignments, command) := leadingAssignments rest
    if p.zero && !command.isEmpty then
      return ← misused name 125 "cannot specify --null (-0) with command".toList
    if p.dir.isSome && command.isEmpty then
      return ← misused name 125 "must specify command with --chdir (-C)".toList
    match p.unset.find? fun key => key.isEmpty || key.contains '=' with
    | some key =>
      if !p.clear then
        return ← toolFails name 125 (because ("cannot unset ".toList ++ quoted key) .invalidArgument)
    | none => pure ()
    modify fun s => { s with vars :=
      if p.clear then [] else s.vars.filter fun (key, _) => !p.unset.contains key }
    for word in assignments do
      let (key, value) := splitAssignment word
      modify fun s => s.put key { value, exported := true }
    match p.dir with
    | none => pure ()
    | some dir =>
      match (← get).tree.locate (toPath dir) with
      | .ok loc =>
        if !(← get).tree.isDir (toPath dir) then
          return ← toolFails name 125 (because ("cannot change directory to ".toList ++ quoted dir) .notDirectory)
        modify fun s => { s with tree := { s.tree with workdir := loc } }
      | .error fault =>
        return ← toolFails name 125 (because ("cannot change directory to ".toList ++ quoted dir) fault)
    if command.isEmpty then
      sayVariables (lineEnd p.zero)
      return 0
    if p.verbose then
      let program := command.headD []
      let lines := command.zipIdx.flatMap fun (word, i) =>
        asLine ("   arg[".toList ++ ofNat i ++ "]= ".toList ++ quoted word)
      sayError (asLine ("executing: ".toList ++ program) ++ lines)
    startTool e command fun fault => do
      let program := command.headD []
      toolSays name (because (quoted program) fault)
      if fault = .notFound && program.contains ' ' then
        toolSays name "use -[v]S to pass options in shebang lines".toList
      return startErrorStatus fault

def printenvTool : Utility := fun _ name args =>
  withOptions { flags := "0", long := [.same "null" '0'], leading := true } 2 name args fun o => do
    let stop := lineEnd (o.has '0')
    if o.operands.isEmpty then
      sayVariables stop
      return 0
    let s ← get
    o.operands.foldlM
      (fun status key => do
        match s.value? key with
        | some value =>
          if key.contains '=' then return 1
          say (value ++ [stop])
          return status
        | none => return 1)
      0

end Amalgam.Script
