import Amalgam.Script.Utility.Environment

/-!
# Gathering arguments

The program that reads arguments and runs a command with them, as often as it takes.

Arguments stand between blanks, and quotes and backslashes keep blanks in them; or they are ended by a given
character.  Either as many arguments as allowed are added to the command, or each line takes the place of a
word in it.
-/

namespace Amalgam.Script

/-! ### Reading -/

structure GatherPlan where
  replaced : Option Text := none
  /-- How many arguments a command gets at most. -/
  perRun : Option Nat := none
  lines : Option Nat := none
  longest : Nat := 131072
  stopWord : Option Text := none
  delimiter : Option Char := none
  /-- Is the command run without arguments if there are none? -/
  always : Bool := true
  verbose : Bool := false
  /-- Is a command that gets too long a fault? -/
  strict : Bool := false
  source : Option Text := none

inductive GatherStep where
  | word (t : Text)
  /-- The end of a line, and whether it counts. -/
  | line (counts : Bool)
  | unmatched (quote : Char)
  | tooLong
  deriving DecidableEq, Repr

inductive GatherMode where
  | blank
  | inside
  | quoted (quote : Char)
  | escaped
  deriving DecidableEq, Repr

structure GatherScan where
  mode : GatherMode := .blank
  /-- The argument so far, the last character first. -/
  word : Text := []
  length : Nat := 0
  previous : Option Char := none
  /-- Is the argument the first one in its line? -/
  first : Bool := true
  seen : Bool := false
  steps : List GatherStep := []
  ended : Bool := false

def beforeNul (t : Text) : Text :=
  t.takeWhile (!isNul ·)

/-- Ends an argument; `closing` says that it ends a line as well. -/
def GatherScan.endWord (p : GatherPlan) (s : GatherScan) (closing counts : Bool) : GatherScan :=
  let word := beforeNul s.word.reverse
  let rest := { s with mode := .blank, word := [], length := 0, seen := false }
  let lineEnd : List GatherStep := if closing then [.line counts] else []
  if p.stopWord = some word then
    { rest with ended := true, steps := if s.first then s.steps else .line counts :: s.steps }
  else { rest with first := closing, steps := lineEnd ++ .word word :: s.steps }

/-- Adds a character to an argument; `room` is how long one may be. -/
def GatherScan.add (room : Int) (s : GatherScan) (c : Char) : GatherScan :=
  if room ≤ s.length then { s with steps := .tooLong :: s.steps, ended := true }
  else { s with word := c :: s.word, length := s.length + 1 }

def GatherScan.inside (p : GatherPlan) (room : Int) (s : GatherScan) (c : Char) : GatherScan :=
  let s := { s with mode := .inside }
  if c = '\n' then
    let counts := !s.previous.any isGap
    if s.word.isEmpty && !s.seen then { s with mode := .blank } else s.endWord p true counts
  else
    let s := { s with seen := true }
    if p.replaced.isNone && isGap c then s.endWord p false false
    else if c = '\\' then { s with mode := .escaped }
    else if c = '\'' ∨ c = '"' then { s with mode := .quoted c }
    else s.add room c

def GatherScan.next (p : GatherPlan) (room : Int) (s : GatherScan) (c : Char) : GatherScan :=
  if s.ended then s
  else
    let after := match s.mode with
      | .blank => if isSpace c then s else s.inside p room c
      | .inside => s.inside p room c
      | .quoted quote =>
        if c = '\n' then { s with steps := .unmatched quote :: s.steps, ended := true }
        else if c = quote then { s with mode := .inside, seen := true }
        else s.add room c
      | .escaped => { s with mode := .inside }.add room c
    { after with previous := some c }

def GatherScan.nextRaw (p : GatherPlan) (delimiter : Char) (room : Int) (s : GatherScan) (c : Char) : GatherScan :=
  if s.ended then s
  else if c = delimiter then { s with first := false }.endWord { p with stopWord := none } true true
  else s.add room c

def gatherSteps (p : GatherPlan) (room : Int) (t : Text) : List GatherStep :=
  let s := t.foldl
    (fun (s : GatherScan) c => match p.delimiter with
      | some delimiter => s.nextRaw p delimiter room c
      | none => s.next p room c)
    {}
  let s := if s.ended || s.word.isEmpty then s
    else
      match s.mode with
      | .quoted quote => { s with steps := .unmatched quote :: s.steps }
      | _ => s.endWord p true false
  s.steps.reverse

/-! ### Running -/

/-- A command that is being put together. -/
structure GatherState where
  args : List Text := []
  length : Nat
  lines : Nat := 0
  /-- A command that was started, and whose end was not waited for. -/
  running : Option (List Text) := none
  runs : Nat := 0
  status : Nat := 0

abbrev Gathering := ExceptT Nat Run

def gatherFault {α : Type} (name : Text) (status : Nat) (text : Text) : Gathering α := do
  toolSays name text
  throw status

def GatherState.settle (e : Engine) (name : Text) (p : GatherPlan) (s : GatherState) : Gathering GatherState := do
  match s.running with
  | none => return s
  | some argv =>
    let program := argv.headD []
    let before := (← get).descriptors
    if p.source.isNone then setDescriptor 0 (← addChannel (.ofText []))
    let ended ← startNamed e argv
    modify fun now => { now with descriptors := before }
    match ended with
    | .error fault => gatherFault name (startErrorStatus fault) (because program fault)
    | .ok (.killed signal) =>
      gatherFault name 125 (program ++ ": terminated by signal ".toList ++ ofNat signal)
    | .ok (.exited 255) => gatherFault name 124 (program ++ ": exited with status 255; aborting".toList)
    | .ok (.exited status) => return { s with running := none, status := if status = 0 then s.status else 123 }

def shownWord (t : Text) : Text :=
  if needsQuotes t then quoted t else t

def GatherState.start (e : Engine) (name : Text) (p : GatherPlan) (length : Nat) (argv : List Text)
    (s : GatherState) : Gathering GatherState := do
  let s ← s.settle e name p
  if p.verbose then sayError (asLine (unwords (argv.map shownWord)))
  return { s with args := [], length, running := some argv, runs := s.runs + 1 }

def argumentLength (t : Text) : Nat :=
  t.length + 1

def commandLength (argv : List Text) : Nat :=
  argv.foldr (fun t total => argumentLength t + total) 0

def GatherState.flush (e : Engine) (name : Text) (p : GatherPlan) (command : List Text) (s : GatherState) :
    Gathering GatherState :=
  s.start e name p (commandLength command) (command ++ s.args.reverse)

def GatherState.take (e : Engine) (name : Text) (p : GatherPlan) (command : List Text) (s : GatherState)
    (t : Text) : Gathering GatherState := do
  let size := argumentLength t
  let s ← if s.length + size ≤ p.longest then pure s
    else if s.args.isEmpty then
      gatherFault name 1 "cannot fit single argument within argument list size limit".toList
    else if p.strict && (p.lines.isSome || p.perRun.isSome) then
      gatherFault name 1 "argument list too long".toList
    else s.flush e name p command
  let s := { s with args := t :: s.args, length := s.length + size }
  if p.perRun = some s.args.length then s.flush e name p command else return s

def withReplaced (old new : Text) (t : Text) : Text :=
  if old.isEmpty then t
  else
    let rec go : Nat → Text → List Text
      | 0, rest => [rest]
      | _ + 1, [] => []
      | fuel + 1, c :: rest =>
        if old.isPrefixOf (c :: rest) then new :: go fuel ((c :: rest).drop old.length) else [c] :: go fuel rest
    (go (t.length + 1) t).flatten

def GatherState.abandon (e : Engine) (name : Text) (p : GatherPlan) (command : List Text) (s : GatherState) :
    Gathering GatherState := do
  let s ← if p.replaced.isNone && !s.args.isEmpty && !p.strict then s.flush e name p command else pure s
  let _ ← s.settle e name p
  throw 1

def GatherState.step (e : Engine) (name : Text) (p : GatherPlan) (command : List Text) (s : GatherState) :
    GatherStep → Gathering GatherState
  | .word t =>
    match p.replaced with
    | none => s.take e name p command t
    | some [] => gatherFault name 1 "command too long".toList
    | some word => s.start e name p 0 (command.take 1 ++ (command.drop 1).map (withReplaced word t))
  | .line counts => do
    let s := if counts then { s with lines := s.lines + 1 } else s
    if p.replaced.isNone && p.lines.any (· ≤ s.lines) then
      let s ← s.flush e name p command
      return { s with lines := 0 }
    else return s
  | .unmatched quote => do
    let kind := if quote = '"' then "double" else "single"
    toolSays name ("unmatched ".toList ++ kind.toList ++
      " quote; by default quotes are special to xargs unless you use the -0 option".toList)
    s.abandon e name p command
  | .tooLong => do
    toolSays name "argument line too long".toList
    s.abandon e name p command

def gatherAll (e : Engine) (name : Text) (p : GatherPlan) (command : List Text) (t : Text) : Gathering Nat := do
  let length := if p.replaced.isSome then 0 else commandLength command
  if p.longest < length then
    gatherFault name 1 "cannot fit single argument within argument list size limit".toList
  let room : Int := (p.longest : Int) - length - 1
  let steps := gatherSteps p room t
  let s ← steps.foldlM (GatherState.step e name p command) { length }
  let s ← if p.replaced.isNone && (!s.args.isEmpty || (p.always && s.runs = 0)) then s.flush e name p command
    else pure s
  return (← s.settle e name p).status

/-! ### Options -/

def delimiterOf (t : Text) : Except Text Char :=
  match t with
  | [c] => .ok c
  | '\\' :: rest =>
    let numbered (base most : Nat) (digits : Text) : Except Text Char :=
      if digits.isEmpty || digits.any (digitIn base · |>.isNone) then
        .error ("Invalid escape sequence ".toList ++ t ++ " in input delimiter specification; trailing characters ".toList ++
          digits ++ " not recognised.".toList)
      else if most < numberIn base digits then
        .error ("Invalid escape sequence ".toList ++ t ++ " in input delimiter specification; character values must not exceed ".toList ++
          (if base = 8 then "0377.".toList else "FF.".toList))
      else .ok (Char.ofNat (numberIn base digits))
    match rest with
    | 'x' :: digits => numbered 16 255 digits
    | '0' :: digits => if digits.isEmpty then .ok (Char.ofNat 0) else numbered 8 255 digits
    | ['a'] => .ok (Char.ofNat 7)
    | ['b'] => .ok (Char.ofNat 8)
    | ['f'] => .ok (Char.ofNat 12)
    | ['n'] => .ok '\n'
    | ['r'] => .ok '\r'
    | ['t'] => .ok '\t'
    | ['v'] => .ok (Char.ofNat 11)
    | ['\\'] => .ok '\\'
    | _ => .error ("Invalid escape sequence ".toList ++ t ++ " in input delimiter specification.".toList)
  | _ =>
    .error ("Invalid input delimiter specification ".toList ++ t ++
      ": the delimiter must be either a single character or an escape sequence starting with \\.".toList)

def gatherNumber (least : Int) (letter : Char) (t : Text) : Except (Text × Bool) Nat :=
  match wholeNumber? false t with
  | none => .error ("invalid number \"".toList ++ t ++ "\" for -".toList ++ letter :: " option".toList, true)
  | some n =>
    if n < least then
      .error ("value ".toList ++ ofInt n ++ " for -".toList ++ letter :: " option should be >= ".toList ++ ofInt least,
        true)
    else .ok n.toNat

def warnVoid (name : Text) (old new : String) : Run Unit :=
  toolSays name (("warning: options --" ++ old ++ " and " ++ new ++
    " are mutually exclusive, ignoring previous --" ++ old ++ " value").toList)

/-- What an option says about gathering; an option may make another one void. -/
def gatherSetting (name : Text) (p : GatherPlan) (key : String) (value : Text) :
    Run (Except (Text × Bool) GatherPlan) := do
  let only (word : String) (p : GatherPlan) (replaced perRun lines : Bool) : Run GatherPlan := do
    if perRun && p.perRun.isSome then warnVoid name "max-args" word
    if lines && p.lines.isSome then warnVoid name "max-lines" word
    if replaced && p.replaced.isSome then warnVoid name "replace" word
    return { p with
      replaced := if replaced then none else p.replaced
      perRun := if perRun then none else p.perRun
      lines := if lines then none else p.lines }
  match key with
  | "0" => return .ok { p with delimiter := some (Char.ofNat 0) }
  | "a" => return .ok { p with source := some value }
  | "d" =>
    match delimiterOf value with
    | .ok c => return .ok { p with delimiter := some c }
    | .error text => return .error (text, false)
  | "E" => return .ok { p with stopWord := if value.isEmpty then none else some value }
  | "e" => return .ok { p with stopWord := if value.isEmpty then none else some value }
  | "I" | "i" =>
    let p ← only "--replace/-I/-i" p false true true
    return .ok { p with replaced := some (if key == "i" && value.isEmpty then ['\x7b', '\x7d'] else value) }
  | "L" | "l" =>
    match gatherNumber 1 (if key == "L" then 'L' else 'l') (if key == "l" && value.isEmpty then ['1'] else value) with
    | .error fault => return .error fault
    | .ok n =>
      let p ← only (if key == "L" then "-L" else "--max-lines/-l") p true true false
      return .ok { p with lines := some n }
  | "n" =>
    match gatherNumber 1 'n' value with
    | .error fault => return .error fault
    | .ok n =>
      if n = 1 && p.replaced.isSome then return .ok p
      let p ← only "--max-args/-n" p true false true
      return .ok { p with perRun := some n }
  | "s" =>
    match gatherNumber 1 's' value with
    | .error fault => return .error fault
    | .ok n => return .ok { p with longest := min n 131072 }
  | "P" =>
    match gatherNumber 0 'P' value with
    | .error fault => return .error fault
    | .ok _ => return .ok p
  | "r" => return .ok { p with always := false }
  | "t" | "p" => return .ok { p with verbose := true }
  | "x" => return .ok { p with strict := true }
  | _ => return .ok p

def gatherSpec : OptionSpec :=
  { flags := "0oprtx", valued := "EILPadns", attached := "eil", leading := true,
    long := [.same "null" '0', .same "arg-file" 'a', .same "delimiter" 'd', .same "eof" 'e', .same "replace" 'i',
      .same "max-lines" 'l', .same "max-args" 'n', .same "open-tty" 'o', .same "interactive" 'p',
      .same "no-run-if-empty" 'r', .same "max-chars" 's', .same "verbose" 't', .flag "show-limits",
      .same "exit" 'x', .same "max-procs" 'P', .valued "process-slot-var"] }

def gatherPlan (name : Text) (o : Options) : Run (Except Nat GatherPlan) := do
  let rec go (p : GatherPlan) : List (String × Text) → Run (Except Nat GatherPlan)
    | [] => return .ok p
    | (key, value) :: rest => do
      match ← gatherSetting name p key value with
      | .ok p => go p rest
      | .error (text, true) => return .error (← misused name 1 text)
      | .error (text, false) => return .error (← toolFails name 1 text)
  go {} o.given

/-- Says that there is a character in the input that arguments cannot have. -/
def warnNul (name : Text) (p : GatherPlan) (t : Text) : Run Unit := do
  if p.delimiter.isNone && t.any isNul then
    toolSays name ("WARNING: a NUL character occurred in the input.  It cannot be passed through in the argument list.  ".toList ++
      "Did you mean to use the --null option?".toList)

def gatherInput (p : GatherPlan) : Run (Except Text Text) := do
  match p.source with
  | some path =>
    match ← readFile path with
    | .ok text => return .ok text
    | .error e => return .error (because ("Cannot open input file ".toList ++ quoted path) e)
  | none =>
    match ← readStandard with
    | .ok text => return .ok text
    | .error _ => return .ok []

def xargsTool : Utility := fun e name args =>
  withChecked (misused name 1) gatherSpec name args (gatherPlan name) fun p o => do
    let command := if o.operands.isEmpty then ["echo".toList] else o.operands
    match ← gatherInput p with
    | .error text => toolFails name 1 text
    | .ok text =>
      warnNul name p text
      match ← (gatherAll e name p command text).run with
      | .ok status | .error status => return status

end Amalgam.Script
