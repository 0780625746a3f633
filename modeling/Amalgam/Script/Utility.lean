import Amalgam.Script.Expand

/-!
# Utilities

Programs of the system that scripts use.  A utility reads its options, which may stand anywhere among the
operands up to `--`, and does its work through the descriptors of the shell that started it.
-/

namespace Amalgam.Script

/-- A program: what it does when it is called by a name with arguments. -/
abbrev Utility := Engine → Text → List Text → Run Nat

/-! ### Names in messages -/

/-- Is the character one that a line on a terminal would not show? -/
def isUnshown (c : Char) : Bool :=
  c.toNat < 32 || 127 ≤ c.toNat

def meansSomething (c : Char) : Bool :=
  isUnshown c || " !\"$&()*;<=>[^|'\\?".toList.contains c || c == backquote

/-- Would a shell read the text as something else than itself? -/
def needsQuotes (t : Text) : Bool :=
  match t with
  | [] => true
  | ['{'] | ['}'] => true
  | c :: _ => c == '#' || c == '~' || t.any meansSomething

def octalDigits (n : Nat) : Text :=
  [n / 64 % 8, n / 8 % 8, n % 8].map fun d => Char.ofNat (48 + d)

/-- What stands for a character that is not shown. -/
def unshownText (c : Char) : Text :=
  match c.toNat with
  | 7 => ['\\', 'a']
  | 8 => ['\\', 'b']
  | 9 => ['\\', 't']
  | 10 => ['\\', 'n']
  | 11 => ['\\', 'v']
  | 12 => ['\\', 'f']
  | 13 => ['\\', 'r']
  | n => '\\' :: octalDigits n

/-- The inside of a text between quotes; `escaping` says that escapes were the last that was written. -/
def quotedFrom : Bool → Text → Text
  | _, [] => []
  | escaping, c :: rest =>
    if isUnshown c then
      (if escaping then [] else ['\'', '$', '\'']) ++ unshownText c ++ quotedFrom true rest
    else if c = '\'' then ['\'', '\\', '\'', '\''] ++ quotedFrom false rest
    else (if escaping then ['\'', '\''] else []) ++ c :: quotedFrom false rest

def quoted (t : Text) : Text :=
  let plain (c : Char) : Bool := c.isAlphanum || "%+,-./:]_@ '".toList.contains c
  if t.contains '\'' && t.all plain then '"' :: t ++ ['"']
  else '\'' :: quotedFrom false t ++ ['\'']

def shownName (t : Text) : Text :=
  if needsQuotes t || t.contains ':' then quoted t else t

/-- A word between quotes, in which escapes stand for characters that are not shown. -/
def cited (t : Text) : Text :=
  let inside := t.flatMap fun c =>
    if isUnshown c then unshownText c else if c == '\'' || c == '\\' then ['\\', c] else [c]
  '\'' :: inside ++ ['\'']

def lastName (path : Text) : Text :=
  let trimmed := (path.reverse.dropWhile (· == '/')).reverse
  if trimmed.isEmpty then (if path.isEmpty then [] else ['/'])
  else (trimmed.reverse.takeWhile (· != '/')).reverse

def inDirectory (dir name : Text) : Text :=
  if dir.getLast? = some '/' then dir ++ name else dir ++ '/' :: name

def fitsGlob (pattern t : Text) : Bool :=
  fits (pattern.map fun c => ⟨c, true⟩) t

/-! ### Messages -/

def toolSays (name : Text) (text : Text) : Run Unit :=
  sayError (asLine (name ++ ": ".toList ++ text))

def toolFails (name : Text) (status : Nat) (text : Text) : Run Nat := do
  toolSays name text
  return status

def seeHelp (name : Text) : Run Unit :=
  sayError (asLine ("Try '".toList ++ name ++ " --help' for more information.".toList))

/-- Shows a message about a wrong use of a program. -/
def misused (name : Text) (status : Nat) (text : Text) : Run Nat := do
  toolSays name text
  seeHelp name
  return status

/-- Asks a question on the error output, and reads the answer. -/
def confirms (question : Text) : Run Bool := do
  sayError question
  let answer ← readLine 0
  return answer.head? = some 'y' || answer.head? = some 'Y'

def because (text : Text) (e : OsError) : Text :=
  text ++ ": ".toList ++ e.text.toList

/-! ### Options -/

/-- A long name of an option. -/
inductive LongOption where
  | same (name : String) (letter : Char)
  | flag (name : String)
  | valued (name : String)
  /-- Its value, if there is one, stands in the same argument. -/
  | attached (name : String)
  deriving DecidableEq, Repr

def LongOption.name : LongOption → String
  | same name _ | flag name | valued name | attached name => name

/-- What an option is known by: its letter, or its long name if it has none. -/
def LongOption.key : LongOption → String
  | same _ letter => String.singleton letter
  | flag name | valued name | attached name => name

/-- The options that a program has. -/
structure OptionSpec where
  flags : String := ""
  valued : String := ""
  /-- Letters whose value, if there is one, stands in the same argument. -/
  attached : String := ""
  long : List LongOption := []
  /-- Do options end where the first operand stands? -/
  leading : Bool := false

/-- What is wrong with options. -/
inductive OptionFault where
  | unknown (letter : Char)
  | unknownLong (word : Text)
  | unclear (word : Text) (candidates : List String)
  | missingValue (letter : Char)
  | missingLongValue (name : String)
  | superfluousValue (name : String)
  | information

def OptionFault.text : OptionFault → Text
  | unknown letter => "invalid option -- '".toList ++ [letter, '\'']
  | unknownLong word => "unrecognized option '--".toList ++ word ++ ['\'']
  | unclear word candidates =>
    "option '--".toList ++ word ++ "' is ambiguous; possibilities:".toList ++
      candidates.flatMap fun name => " '--".toList ++ name.toList ++ ['\'']
  | missingValue letter => "option requires an argument -- '".toList ++ [letter, '\'']
  | missingLongValue name => "option '--".toList ++ name.toList ++ "' requires an argument".toList
  | superfluousValue name => "option '--".toList ++ name.toList ++ "' doesn't allow an argument".toList
  | information => []

/-- Options with their values in order, and operands. -/
structure Options where
  /-- Each option is known by its letter, or by its long name if it has no letter. -/
  given : List (String × Text) := []
  operands : List Text := []
  /-- What is wrong with the arguments after those. -/
  fault : Option OptionFault := none

def Options.has (o : Options) (letter : Char) : Bool :=
  o.given.any (·.1 == String.singleton letter)

/-- Is the option given that has a long name only? -/
def Options.mentions (o : Options) (name : String) : Bool :=
  o.given.any (·.1 == name)

def Options.named (o : Options) (name : String) : List Text :=
  (o.given.filter (·.1 == name)).map Prod.snd

def Options.named? (o : Options) (name : String) : Option Text :=
  (o.named name).getLast?

def Options.value? (o : Options) (letter : Char) : Option Text :=
  o.named? (String.singleton letter)

def Options.lastOf? (o : Options) (keys : List String) : Option (String × Text) :=
  (o.given.filter fun (key, _) => keys.contains key).getLast?

/-- The letters of one argument; the value of an option may be the next argument. -/
def parseLetters (spec : OptionSpec) (next : List Text) :
    Text → Except OptionFault (List (String × Text) × List Text)
  | [] => .ok ([], next)
  | c :: rest =>
    let key := String.singleton c
    if spec.flags.toList.contains c then
      (parseLetters spec next rest).map fun (given, next) => ((key, []) :: given, next)
    else if spec.valued.toList.contains c then
      match rest, next with
      | _ :: _, _ => .ok ([(key, rest)], next)
      | [], value :: next => .ok ([(key, value)], next)
      | [], [] => .error (.missingValue c)
    else if spec.attached.toList.contains c then .ok ([(key, rest)], next)
    else .error (.unknown c)

/-- The option that a long name means, which may be cut off as long as it is clear. -/
def longNamed (spec : OptionSpec) (word : Text) : Except OptionFault LongOption :=
  let name := word.takeWhile (· != '=')
  let all := spec.long ++ [.flag "help", .flag "version"]
  match all.find? fun option => option.name.toList = name with
  | some option => .ok option
  | none =>
    let found := all.filter fun option => name.isPrefixOf option.name.toList
    match found with
    | [] => .error (.unknownLong word)
    | option :: others =>
      if others.all fun other => other.key = option.key then .ok option
      else .error (.unclear word (found.map LongOption.name))

/-- A long option; its value stands after an equals sign or is the next argument. -/
def parseLong (spec : OptionSpec) (next : List Text) (word : Text) :
    Except OptionFault (List (String × Text) × List Text) := do
  let value? : Option Text := match word.dropWhile (· != '=') with
    | _ :: value => some value
    | [] => none
  let option ← longNamed spec word
  let (valued, attached) := match option with
    | .same _ letter => (spec.valued.toList.contains letter, spec.attached.toList.contains letter)
    | .flag _ => (false, false)
    | .valued _ => (true, false)
    | .attached _ => (false, true)
  if valued then
    match value?, next with
    | some value, _ => return ([(option.key, value)], next)
    | none, value :: next => return ([(option.key, value)], next)
    | none, [] => throw (.missingLongValue option.name)
  else if attached then return ([(option.key, value?.getD [])], next)
  else if value?.isSome then throw (.superfluousValue option.name)
  else if option.name = "help" ∨ option.name = "version" then throw .information
  else return ([(option.key, [])], next)

/-- Options and operands in arguments, up to a fault; `fuel` bounds the number of arguments. -/
def parseFrom (spec : OptionSpec) : Nat → Options → List Text → Options
  | 0, o, _ => o
  | _ + 1, o, [] => o
  | fuel + 1, o, arg :: rest =>
    let goOn (read : Except OptionFault (List (String × Text) × List Text)) : Options :=
      match read with
      | .error fault => { o with fault }
      | .ok (given, rest) => parseFrom spec fuel { o with given := o.given ++ given } rest
    match arg with
    | ['-', '-'] => { o with operands := o.operands ++ rest }
    | '-' :: '-' :: word => goOn (parseLong spec rest word)
    | '-' :: c :: letters => goOn (parseLetters spec rest (c :: letters))
    | _ =>
      if spec.leading then { o with operands := o.operands ++ arg :: rest }
      else parseFrom spec fuel { o with operands := o.operands ++ [arg] } rest

/-- Runs a program with its options.  `check` looks at the options up to the first that is wrong, and
`refuse` says what happens if one is wrong. -/
def withChecked {α : Type} (refuse : Text → Run Nat) (spec : OptionSpec) (name : Text) (args : List Text)
    (check : Options → Run (Except Nat α)) (body : α → Options → Run Nat) : Run Nat := do
  let leading := spec.leading || ((← get).vars.lookup "POSIXLY_CORRECT".toList).isSome
  let o := parseFrom { spec with leading } (args.length + 1) {} args
  match ← check o with
  | .error status => return status
  | .ok value =>
    match o.fault with
    | none => body value o
    | some .information =>
      say (asLine name)
      return 0
    | some fault => refuse fault.text

/-- Runs a program with its options; `refuse` says what happens if they are wrong. -/
def withOptionsOr (refuse : Text → Run Nat) (spec : OptionSpec) (name : Text) (args : List Text)
    (body : Options → Run Nat) : Run Nat :=
  withChecked refuse spec name args (fun _ => return .ok ()) fun _ o => body o

/-- Runs a program with its options; wrong ones give the status `status`. -/
def withOptions (spec : OptionSpec) (status : Nat) (name : Text) (args : List Text)
    (body : Options → Run Nat) : Run Nat :=
  withOptionsOr (misused name status) spec name args body

/-- Runs a program with settings that its options give one after the other.  An option may be wrong; then
the words for that are given, with the information whether help is pointed at. -/
def withSettings {α : Type} (spec : OptionSpec) (status : Nat) (name : Text) (args : List Text) (start : α)
    (step : α → String → Text → Except (Text × Bool) α) (body : α → Options → Run Nat) : Run Nat :=
  withChecked (misused name status) spec name args
    (fun o => do
      match o.given.foldlM (fun settings (key, value) => step settings key value) start with
      | .ok settings => return .ok settings
      | .error (text, true) => return .error (← misused name 1 text)
      | .error (text, false) => return .error (← toolFails name status text))
    body

/-- The choice that a word stands for, which may be cut off as long as it is clear.  Words in one group mean
the same. -/
def choiceOf {α : Type} (what : String) (groups : List (List String × α)) (word : Text) : Except Text α :=
  let all := groups.zipIdx.flatMap fun ((names, value), i) => names.map fun name => (name.toList, i, value)
  match all.find? fun (name, _) => name = word with
  | some (_, _, value) => .ok value
  | none =>
    let found := all.filter fun (name, _) => word.isPrefixOf name
    let refusal (kind : String) : Text :=
      let line (names : List String) : Text :=
        "\n  - ".toList ++ (", ".intercalate (names.map fun name => "'" ++ name ++ "'")).toList
      (kind ++ " argument ").toList ++ cited word ++ (" for '" ++ what ++ "'\nValid arguments are:").toList ++
        groups.flatMap fun (names, _) => line names
    match found with
    | [] => .error (refusal "invalid")
    | (_, i, value) :: others =>
      if others.all fun (_, j, _) => i = j then .ok value else .error (refusal "ambiguous")

/-! ### Sizes -/

/-- What is wrong with a number. -/
inductive SizeFault where
  | invalid
  | tooLarge
  deriving DecidableEq, Repr

def maxSize : Nat := Nat.pow 2 64 - 1

/-- What the letter of a unit multiplies by, where `base` is a thousand of them. -/
def unitFactor? (base : Nat) : Char → Option Nat
  | 'k' | 'K' => some base
  | 'm' | 'M' => some (Nat.pow base 2)
  | 'g' | 'G' => some (Nat.pow base 3)
  | 't' | 'T' => some (Nat.pow base 4)
  | 'P' => some (Nat.pow base 5)
  | 'E' => some (Nat.pow base 6)
  | 'Z' => some (Nat.pow base 7)
  | 'Y' => some (Nat.pow base 8)
  | _ => none

/-- The factor that a unit stands for; only units in `allowed` are known, and those of a thousand only if a
zero is in it. -/
def suffixFactor? (allowed : Text) (suffix : Text) : Option Nat :=
  match suffix with
  | [] => some 1
  | c :: rest =>
    if !allowed.contains c then none
    else
      match c, rest with
      | 'b', [] => some 512
      | 'c', [] => some 1
      | 'w', [] => some 2
      | 'B', [] => some 1024
      | _, [] => unitFactor? 1024 c
      | _, ['B'] | _, ['D'] => if allowed.contains '0' then unitFactor? 1000 c else none
      | _, ['i', 'B'] => if allowed.contains '0' then unitFactor? 1024 c else none
      | _, _ => none

/-- A number of bytes or lines, which may have a unit. -/
def sizeOf (allowed : String) (t : Text) : Except SizeFault Nat :=
  let t := t.dropWhile isSpace
  let body := if t.head? = some '+' then t.drop 1 else t
  let digits := body.takeWhile Char.isDigit
  let suffix := body.drop digits.length
  if digits.isEmpty && (suffix.isEmpty || suffix.length < t.length) then .error .invalid
  else
    match suffixFactor? allowed.toList suffix with
    | none => .error .invalid
    | some factor =>
      let n := (if digits.isEmpty then 1 else digitsValue digits) * factor
      if maxSize < n then .error .tooLarge else .ok n

def SizeFault.text (fault : SizeFault) (what : String) (t : Text) : Text :=
  let start := what.toList ++ ": ".toList ++ cited t
  if fault = .tooLarge then start ++ ": Value too large for defined data type".toList else start

/-- Which words there are for a whole number that is out of its range. -/
def rangeFault (n : Int) : String :=
  if 1073741824 < n ∨ n < -1073741824 then ": Value too large for defined data type"
  else ": Numerical result out of range"

/-- A whole number between two bounds, or the words for a text that is none. -/
def wholeOf (low high : Int) (what : String) (t : Text) : Except Text Int :=
  let body := t.dropWhile isSpace
  let (negative, digits) := match body with
    | '-' :: rest => (true, rest)
    | '+' :: rest => (false, rest)
    | _ => (false, body)
  let refusal := what.toList ++ ": ".toList ++ cited t
  match natOf? digits with
  | none => .error refusal
  | some n =>
    let value : Int := if negative then -(n : Int) else n
    if low ≤ value ∧ value ≤ high then .ok value else .error (refusal ++ (rangeFault value).toList)

/-! ### Input -/

/-- Reads all that is left of the standard input, if that is possible. -/
def readStandard : Run (Except OsError Text) := do
  match ← channelOf? 0 with
  | none => return .error .badDescriptor
  | some (_, .file loc _ access) =>
    if !access.reads then return .error .badDescriptor
    if (← get).tree.entry? loc = some .dir then return .error .isDirectory
    return .ok (← readAll 0)
  | some (_, .stream _) => return .ok (← readAll 0)

/-- The content of a file; a hyphen stands for the standard input. -/
def readOperand (path : Text) : Run (Except OsError Text) :=
  if path = ['-'] then readStandard else readFile path

def orStandard (operands : List Text) : List Text :=
  if operands.isEmpty then [['-']] else operands

/-- Works on each input; one that cannot be read is named, and makes the status one. -/
def forInputs (name : Text) (operands : List Text) (refusal : Text → OsError → Text)
    (body : Text → Text → Run Unit) : Run Nat :=
  (orStandard operands).foldlM
    (fun status path => do
      match ← readOperand path with
      | .ok text =>
        body path text
        return status
      | .error e => toolFails name 1 (refusal path e))
    0

def shellOutput (e : Engine) (command : Text) : Run Text := do
  let id ← addChannel (.ofText [])
  let _ ← isolated e do
    setDescriptor 1 id
    let _ ← e.start "/bin/sh".toList ["sh".toList, "-c".toList, command]
  settleHolders e id
  written id

/-- The status of a program that closes the standard input at its end if it was to read it. -/
def closingInput (name : Text) (operands : List Text) (status : Nat) : Run Nat := do
  if !(orStandard operands).contains ['-'] then return status
  match ← channelOf? 0 with
  | none => toolFails name 1 (because ['-'] .badDescriptor)
  | some _ => return status

/-- The usual words for an input that cannot be read. -/
def plainRefusal (path : Text) (e : OsError) : Text :=
  because (shownName path) e

/-- The pieces of a text that end with a character, each with its end if it has one. -/
def piecesWithEnds (stop : Char) (t : Text) : List Text :=
  let pieces := splitAt stop t
  let full := pieces.dropLast.map (· ++ [stop])
  match pieces.getLast? with
  | some [] | none => full
  | some last => full ++ [last]

def linesWithEnds (t : Text) : List Text :=
  piecesWithEnds '\n' t

/-- The pieces of a text that end with a character, without their ends. -/
def barePieces (stop : Char) (t : Text) : List Text :=
  let pieces := splitAt stop t
  if pieces.getLast? = some [] then pieces.dropLast else pieces

def bareLines (t : Text) : List Text :=
  barePieces '\n' t

/-- The character that ends lines: the line break, or the one with the number zero if that is asked for. -/
def lineEnd (zero : Bool) : Char :=
  if zero then Char.ofNat 0 else '\n'

def padLeft (width : Nat) (t : Text) : Text :=
  List.replicate (width - t.length) ' ' ++ t

def padRight (width : Nat) (t : Text) : Text :=
  t ++ List.replicate (width - t.length) ' '

end Amalgam.Script
