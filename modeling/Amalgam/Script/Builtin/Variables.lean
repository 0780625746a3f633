import Amalgam.Script.Utility

/-!
# Commands for variables

Commands of a shell that set, mark, show and read variables, arguments and options.
-/

namespace Amalgam.Script

def singleQuoted (t : Text) : Text :=
  let escaped := t.flatMap fun c => if c = '\'' then "'\"'\"'".toList else [c]
  '\'' :: escaped ++ ['\'']

def illegalOption {α : Type} (letter : Char) : Run α :=
  abort ("Illegal option -".toList ++ [letter])

/-- The options in front of the operands, each of which is one of the given letters. -/
def leadingOptions (letters : String) : List Text → Run (Text × List Text)
  | ['-', '-'] :: rest => return ([], rest)
  | ('-' :: c :: more) :: rest => do
    match (c :: more).find? fun c => !letters.toList.contains c with
    | some bad => illegalOption bad
    | none =>
      let (later, operands) ← leadingOptions letters rest
      return (c :: more ++ later, operands)
  | operands => return ([], operands)

def Shell.sortedVariables (s : Shell) : List (Text × Variable) :=
  s.vars.mergeSort fun a b => textLe a.1 b.1

def splitAssignment (t : Text) : Text × Option Text :=
  match t.dropWhile (· != '=') with
  | _ :: value => (t.takeWhile (· != '='), some value)
  | [] => (t, none)

/-- Stops because a text cannot name a variable.  What stands after an equals sign is not shown. -/
def badName {α : Type} (name : Text) : Run α :=
  abort (name.takeWhile (· != '=') ++ ": bad variable name".toList)

/-- Stops if a text cannot name a variable; else gives the variable a value. -/
def setNamed (name value : Text) : Run Unit := do
  if !isName name then badName name
  setVariable name value

/-- Gives variables a mark, and values if there are any; or shows those that have the mark. -/
def markVariables (word : String) (has : Variable → Bool) (mark : Variable → Variable) : Utility :=
  fun _ _ args => do
    let (options, operands) ← leadingOptions "p" args
    if operands.isEmpty || options.contains 'p' then
      for (name, v) in (← get).sortedVariables do
        if has v then
          let value := match v.value with
            | some t => '=' :: singleQuoted t
            | none => []
          say (asLine (word.toList ++ ' ' :: name ++ value))
    else
      for operand in operands do
        let (name, value) := splitAssignment operand
        if !isName name then badName name
        match value with
        | some t => setVariable name t
        | none => pure ()
        let s ← get
        set (s.put name (mark ((s.vars.lookup name).getD {})))
    return 0

def exportCommand : Utility :=
  markVariables "export" Variable.exported fun v => { v with exported := true }

def readonlyCommand : Utility :=
  markVariables "readonly" Variable.fixed fun v => { v with fixed := true }

def unsetVariable (name : Text) : Run Unit := do
  let s ← get
  match s.vars.lookup name with
  | some v =>
    if v.fixed then abort (name ++ ": is read only".toList)
    noteValue name []
    modify fun s => { s with vars := s.vars.filter (·.1 != name) }
  | none => pure ()

def unsetCommand : Utility := fun _ _ args => do
  let (options, operands) ← leadingOptions "vf" args
  for name in operands do
    let s ← get
    if options.getLast? = some 'f' then set { s with functions := s.functions.filter (·.1 != name) }
    else
      if !isName name then badName name
      unsetVariable name
  return 0

def localCommand : Utility := fun _ _ args => do
  for operand in args do
    let (name, value) := splitAssignment operand
    let s ← get
    match s.hidden with
    | [] => abort "not in a function".toList
    | own :: outer =>
      if !isName name then badName name
      let old := s.vars.lookup name
      if (own.lookup name).isNone then set { s with hidden := ((name, old) :: own) :: outer }
      match value with
      | some t => setVariable name t
      | none => pure ()
  match (← get).hidden with
  | [] => abort "not in a function".toList
  | _ :: _ => return 0

/-! ### Options and arguments -/

/-- The options that have long names, in the order in which they are shown. -/
def optionNames : List (String × Option Char) :=
  [("errexit", some 'e'), ("noglob", some 'f'), ("ignoreeof", some 'I'), ("interactive", some 'i'),
   ("monitor", some 'm'), ("noexec", some 'n'), ("stdin", some 's'), ("xtrace", some 'x'),
   ("verbose", some 'v'), ("vi", some 'V'), ("emacs", some 'E'), ("noclobber", some 'C'),
   ("allexport", some 'a'), ("notify", some 'b'), ("nounset", some 'u'), ("nolog", none), ("debug", none)]

def switchOption (on : Bool) (letter : Char) : Run Unit := do
  if !optionLetters.contains letter then illegalOption letter
  if on && letter == 'm' then complain "can't access tty; job control turned off".toList
  else modify fun s =>
    let others := s.options.filter (· != letter)
    { s with options := if on then letter :: others else others }

def switchNamed (on : Bool) (name : Text) : Run Unit := do
  match optionNames.lookup (String.ofList name) with
  | some (some letter) => switchOption on letter
  | some none => return ()
  | none => abort ("Illegal option -o ".toList ++ name)

def showOptions (on : Bool) : Run Unit := do
  let s ← get
  let state (letter : Option Char) : Bool := (letter.map s.has).getD false
  if on then
    say "Current option settings\n".toList
    for (name, letter) in optionNames do
      let gap := List.replicate (16 - name.length) ' '
      say (asLine (name.toList ++ gap ++ (if state letter then "on" else "off").toList))
  else
    for (name, letter) in optionNames do
      say (asLine ((if state letter then "set -o " else "set +o ").toList ++ name.toList))

/-- Switches the options of one argument, and gives the arguments after it: the name of an option may be one
of them. -/
def switchLetters (on : Bool) : Text → List Text → Run (List Text)
  | [], rest => return rest
  | 'o' :: letters, rest => do
    match rest with
    | name :: later =>
      switchNamed on name
      switchLetters on letters later
    | [] =>
      showOptions on
      switchLetters on letters []
  | letter :: letters, rest => do
    switchOption on letter
    switchLetters on letters rest

/-- Switches options, and gives the arguments after them with a flag that says whether they are operands even
if there are none; `fuel` bounds the number of arguments. -/
def switchOptions : Nat → List Text → Run (Bool × List Text)
  | 0, rest => return (true, rest)
  | _ + 1, ['-', '-'] :: rest => return (true, rest)
  | _ + 1, ['-'] :: rest => do
    switchOption false 'x'
    switchOption false 'v'
    return (!rest.isEmpty, rest)
  | fuel + 1, (sign :: c :: more) :: rest => do
    if sign = '-' ∨ sign = '+' then
      switchOptions fuel (← switchLetters (sign == '-') (c :: more) rest)
    else return (true, (sign :: c :: more) :: rest)
  | _ + 1, [] => return (false, [])
  | _ + 1, rest => return (true, rest)

def setCommand : Utility := fun _ _ args => do
  if args.isEmpty then
    for (name, v) in (← get).sortedVariables do
      match v.value with
      | some t => say (asLine (name ++ '=' :: singleQuoted t))
      | none => pure ()
  else
    let (given, operands) ← switchOptions (args.length + 1) args
    if given then modify fun s => { s with args := operands, optionPlace := {} }
  return 0

def shiftCommand : Utility := fun _ _ args => do
  let count ← match args with
    | t :: _ => numberOrAbort false t
    | [] => pure 1
  if count < 0 then abort ("Illegal number: ".toList ++ args.headD [])
  let s ← get
  if s.args.length < count.toNat then abort "can't shift that many".toList
  set { s with args := s.args.drop count.toNat, optionPlace := {} }
  return 0

/-! ### Input -/

/-- A character of a line that is read; an escaped one does not end a word. -/
structure LineChar where
  char : Char
  escaped : Bool
  deriving DecidableEq, Repr

/-- Reads a line from a descriptor, and says whether it was complete.  Unless `raw`, a backslash escapes a
character or joins lines; `fuel` bounds the number of lines. -/
def readInput (raw : Bool) : Nat → Run (List LineChar × Bool)
  | 0 => return ([], false)
  | fuel + 1 => do
    let line ← readLine 0
    let complete := line.getLast? == some '\n'
    let body := if complete then line.dropLast else line
    let rec unescape : Text → List LineChar × Bool
      | ['\\'] => ([], true)
      | '\\' :: c :: rest =>
        let (later, joins) := unescape rest
        (⟨c, true⟩ :: later, joins)
      | c :: rest =>
        let (later, joins) := unescape rest
        (⟨c, false⟩ :: later, joins)
      | [] => ([], false)
    if raw then return (body.map fun c => ⟨c, false⟩, complete)
    let (chars, joins) := unescape body
    if joins && complete then
      let (later, complete) ← readInput raw fuel
      return (chars ++ later, complete)
    return (chars, complete)

/-- A line that is being split into fields, given by their places.  Escaped characters are not looked at. -/
structure LineSplit where
  start : Nat := 0
  /-- Where the last field ends, if what is left are only separators. -/
  cut : Option Nat := none
  blank : Bool := false
  left : Nat
  fields : List (Nat × Nat) := []

def LineSplit.step (separators : Text) (s : LineSplit) (c : LineChar) (i : Nat) : LineSplit :=
  if c.escaped then { s with blank := false }
  else
    let splits := separators.contains c.char
    let isBlank := splits && (c.char == ' ' || c.char == '\t' || c.char == '\n')
    if s.left = 0 then
      if isBlank then { s with cut := some (s.cut.getD i) }
      else { s with cut := if splits && s.blank then s.cut else none, blank := false }
    else if s.blank then
      { s with start := if splits then i + 1 else i, blank := isBlank }
    else if !splits then s
    else if i = s.start && isBlank then { s with start := i + 1 }
    else if s.left = 1 then { s with left := 0, cut := some i, blank := isBlank }
    else
      { s with start := i + 1, blank := isBlank, left := s.left - 1, fields := s.fields ++ [(s.start, i)] }

/-- The fields of a line, at most as many as given: the last one has all that is left. -/
def lineFields (separators : Text) (most : Nat) (chars : List LineChar) : List Text :=
  let s := chars.zipIdx.foldl (fun s (c, i) => s.step separators c i) { left := most : LineSplit }
  let stop := s.cut.getD chars.length
  let places := if s.start < stop then s.fields ++ [(s.start, stop)] else s.fields
  places.map fun (start, stop) => ((chars.take stop).drop start).map LineChar.char

def readLineCommand : Utility := fun _ _ args => do
  let (options, names) ← match args with
    | ['-', 'p'] :: _ :: rest => pure ([], rest)
    | ['-', 'r'] :: ['-', 'p'] :: _ :: rest => pure (['r'], rest)
    | _ => leadingOptions "r" args
  if names.isEmpty then abort "arg count".toList
  let (chars, complete) ← readInput (options.contains 'r') 100000
  let fields := lineFields (← get).separators names.length chars
  for (name, i) in names.zipIdx do
    setNamed name (fields[i]?.getD [])
  return if complete then 0 else 1

def getoptsCommand : Utility := fun _ _ args => do
  match args with
  | spec :: name :: given =>
    let s ← get
    let words := if given.isEmpty then s.args else given
    let silent := spec.head? == some ':'
    let (found, optionPlace) := (s.optionPlace.within words).next spec words
    let wrong (mark : Char) (letter : Char) (text : Text) : Run Char := do
      if silent then
        setVariable "OPTARG".toList [letter]
        return mark
      else
        sayError (asLine text)
        unsetVariable "OPTARG".toList
        return '?'
    let result ← match found with
      | .finished => pure '?'
      | .unknown c => wrong '?' c ("Illegal option -".toList ++ [c])
      | .lacking c => wrong ':' c ("No arg for -".toList ++ c :: " option".toList)
      | .plain c => do
        setVariable "OPTARG".toList []
        pure c
      | .valued c value => do
        setVariable "OPTARG".toList value
        pure c
    storeVariable optionIndexName (ofNat optionPlace.index)
    setNamed name [result]
    modify fun s => { s with optionPlace }
    return if found = .finished then 1 else 0
  | _ => abort "Usage: getopts optstring var [arg...]".toList

end Amalgam.Script
