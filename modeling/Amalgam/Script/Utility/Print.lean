import Amalgam.Script.Format
import Amalgam.Script.Utility

/-!
# Showing arguments

The programs that show their arguments, as they are or in a form.  They differ a little from the commands of
the shell that have the same names.
-/

namespace Amalgam.Script

/-! ### Escapes -/

/-- The character that hexadecimal digits stand for, at most two of them, and the rest. -/
def hexEscape? (t : Text) : Option (Char × Text) :=
  let digits := (t.take 2).takeWhile isHexDigit
  if digits.isEmpty then none else some (Char.ofNat (numberIn 16 digits), t.drop digits.length)

/-- The character that at most `count` octal digits stand for, and the rest. -/
def octalEscape (count : Nat) (t : Text) : Char × Text :=
  let digits := (t.take count).takeWhile isOctal
  (Char.ofNat (numberIn 8 digits % 256), t.drop digits.length)

def plainEscape? : Char → Option Char
  | 'a' => some (Char.ofNat 7)
  | 'b' => some (Char.ofNat 8)
  | 'e' => some (Char.ofNat 27)
  | 'f' => some (Char.ofNat 12)
  | 'n' => some '\n'
  | 'r' => some '\r'
  | 't' => some '\t'
  | 'v' => some (Char.ofNat 11)
  | '\\' => some '\\'
  | _ => none

/-- A text with its escapes replaced, and whether it asked for the end of all output; `fuel` bounds its
length. -/
def echoUnescaped : Nat → Text → Text × Bool
  | 0, _ => ([], false)
  | _ + 1, [] => ([], false)
  | fuel + 1, c :: rest =>
    let more (c : Char) (rest : Text) : Text × Bool :=
      let (text, ended) := echoUnescaped fuel rest
      (c :: text, ended)
    if c ≠ '\\' then more c rest
    else
      match rest with
      | [] => (['\\'], false)
      | d :: later =>
        match d, plainEscape? d, hexEscape? later with
        | 'c', _, _ => ([], true)
        | 'x', _, some (x, later) => more x later
        | '0', _, _ => more (octalEscape 3 later).1 (octalEscape 3 later).2
        | _, some x, _ => more x later
        | _, none, _ =>
          if isOctal d then more (octalEscape 3 rest).1 (octalEscape 3 rest).2 else more '\\' rest

/-- Shows its arguments; escapes are replaced only if that is asked for. -/
def echoTool : Utility := fun _ name args => do
  let posix := ((← get).value? "POSIXLY_CORRECT".toList).isSome
  let isOption (t : Text) : Bool :=
    match t with
    | '-' :: c :: letters => (c :: letters).all fun c => c == 'n' || c == 'e' || c == 'E'
    | _ => false
  if args = ["--help".toList] || args = ["--version".toList] then
    say (asLine name)
    return 0
  let options := if posix && args.head? ≠ some ['-', 'n'] then [] else args.takeWhile isOption
  let letters := options.flatMap (·.drop 1)
  let words := args.drop options.length
  let escapes := posix || (letters.filter (· != 'n')).getLast? == some 'e'
  let text := unwords words
  let (text, stopped) := if escapes then echoUnescaped (text.length + 1) text else (text, false)
  say (if letters.contains 'n' || stopped then text else asLine text)
  return 0

/-! ### Forms -/

/-- What a form made so far, and the arguments that are left. -/
structure PrintState where
  args : List Text
  failed : Bool := false
  ended : Bool := false

abbrev Printing := StateT PrintState Run

def takeArgument : Printing (Option Text) := do
  let s ← get
  set { s with args := s.args.tail }
  return s.args.head?

def faultyArgument (name text : Text) : Printing Unit := do
  toolSays name text
  modify fun s => { s with failed := true }

/-- The code of the character after a quote, if an argument starts with one. -/
def quotedCode? (name t : Text) : Printing (Option Nat) := do
  match t with
  | '"' :: c :: rest | '\'' :: c :: rest =>
    if !rest.isEmpty then
      toolSays name ("warning: ".toList ++ rest ++
        ": character(s) following character constant have been ignored".toList)
    return some c.toNat
  | _ => return none

def checkNumber (name t rest : Text) (tooLarge : Bool) : Printing Unit := do
  if tooLarge then faultyArgument name (cited t ++ ": Numerical result out of range".toList)
  else if !rest.isEmpty then
    let words := if rest.length = t.length then ": expected a numeric value" else
      ": value not completely converted"
    faultyArgument name (cited t ++ words.toList)

def takeNumber (name : Text) (signed : Bool) : Printing Int := do
  match ← takeArgument with
  | none => return 0
  | some t =>
    match ← quotedCode? name t with
    | some code => return code
    | none =>
      let body := t.dropWhile isSpace
      let (negative, digits) := match body with
        | '-' :: digits => (true, digits)
        | '+' :: digits => (false, digits)
        | _ => (false, body)
      let (n, rest) := numberAt digits
      if rest.length = digits.length then
        checkNumber name t t false
        return 0
      let value : Int := if negative then -(n : Int) else n
      let tooLarge := if signed then wrapped value ≠ value else 0xffffffffffffffff < n
      checkNumber name t rest tooLarge
      if !tooLarge then return value
      else if !signed then return -1
      else return if negative then -0x8000000000000000 else 0x7fffffffffffffff

def takeFloating (name : Text) : Printing Floating := do
  match ← takeArgument with
  | none => return .zero
  | some t =>
    match ← quotedCode? name t with
    | some code => return extendedFormat.ofInt code
    | none =>
      match floatingAt extendedFormat t with
      | none =>
        checkNumber name t t false
        return .zero
      | some (x, rest) =>
        checkNumber name t rest false
        return x

/-- An escape after its backslash: shows what it stands for, and gives the rest.  `zero` says that an octal
number may have a zero in front. -/
def printEscape (name : Text) (zero : Bool) (t : Text) : Printing Text := do
  match t with
  | [] =>
    say ['\\']
    return []
  | c :: rest =>
    if c = 'x' then
      match hexEscape? rest with
      | some (x, rest) =>
        say [x]
        return rest
      | none =>
        faultyArgument name "missing hexadecimal number in escape".toList
        modify fun s => { s with ended := true }
        return []
    else if isOctal c then
      let digits := if zero && c = '0' then rest else t
      let (x, rest) := octalEscape 3 digits
      say [x]
      return rest
    else
      match c, plainEscape? c with
      | 'c', _ =>
        modify fun s => { s with ended := true }
        return []
      | '"', _ =>
        say ['"']
        return rest
      | _, some x =>
        say [x]
        return rest
      | _, none =>
        say ['\\', c]
        return rest

/-- Shows a text with its escapes replaced; `fuel` bounds its length. -/
def printUnescaped (name : Text) : Nat → Text → Printing Unit
  | 0, _ => return ()
  | _ + 1, [] => return ()
  | fuel + 1, c :: rest => do
    if (← get).ended then return ()
    if c = '\\' then printUnescaped name fuel (← printEscape name true rest)
    else
      say [c]
      printUnescaped name fuel rest

/-- A size in a directive: a number, or the next argument if a star stands there. -/
def printSize (name t : Text) : Printing (Option Int × Text) := do
  match t with
  | '*' :: rest => return (some (← takeNumber name true), rest)
  | _ =>
    let digits := t.takeWhile Char.isDigit
    return (if digits.isEmpty then none else some (digitsValue digits), t.drop digits.length)

def directiveLetters (flags : Text) (precise : Bool) : Text :=
  let without (cond : Bool) (letters : String) (all : Text) : Text :=
    if cond then all.filter fun c => !letters.toList.contains c else all
  without (flags.contains '\'') "aAceEosxX"
    (without (flags.contains '#') "cdisu"
      (without (flags.contains '0') "cs" (without precise "c" "aAcdeEfFgGiosuxX".toList)))

/-- Shows an argument as a directive says, after the percent sign, and gives the rest. -/
def printDirective (name t : Text) : Printing Text := do
  let isFlag (c : Char) : Bool := "#-+ 0'I".toList.contains c
  let flags := t.takeWhile isFlag
  let (width, rest) ← printSize name (t.drop flags.length)
  let width := width.getD 0
  let (precision, rest) ← match rest with
    | '.' :: rest => do
      let (size, rest) ← printSize name rest
      pure (some (size.getD 0), rest)
    | _ => pure (none, rest)
  let later := rest.dropWhile fun c => "hlLjtz".toList.contains c
  let d : Directive :=
    { flags := if width < 0 then '-' :: flags else flags, width := width.natAbs,
      precision := precision.bind fun n => if n < 0 then none else some n.toNat }
  match later with
  | [] =>
    faultyArgument name ('%' :: t ++ ": invalid conversion specification".toList)
    modify fun s => { s with ended := true }
    return []
  | kind :: after =>
    if !(directiveLetters flags precision.isSome).contains kind then
      let written := t.take (t.length - after.length)
      faultyArgument name ('%' :: written ++ ": invalid conversion specification".toList)
      modify fun s => { s with ended := true }
      return []
    match kind with
    | 's' => say (d.text ((← takeArgument).getD []))
    | 'c' =>
      match (← takeArgument).getD [] with
      | c :: _ => say (d.fill [c])
      | [] => say (d.fill [Char.ofNat 0])
    | 'd' | 'i' => say (d.signed (← takeNumber name true))
    | 'o' | 'u' | 'x' | 'X' => say (d.unsigned kind (← takeNumber name false))
    | _ => say (d.floating kind (← takeFloating name))
    return after

/-- Goes through a form once; `fuel` bounds its length. -/
def printOnce (name : Text) : Nat → Text → Printing Unit
  | 0, _ => return ()
  | fuel + 1, t => do
    if (← get).ended then return ()
    match t with
    | [] => return ()
    | '\\' :: rest => printOnce name fuel (← printEscape name false rest)
    | '%' :: '%' :: rest =>
      say ['%']
      printOnce name fuel rest
    | '%' :: 'b' :: rest =>
      let text := (← takeArgument).getD []
      printUnescaped name (text.length + 1) text
      printOnce name fuel rest
    | '%' :: 'q' :: rest =>
      say (shownName ((← takeArgument).getD []))
      printOnce name fuel rest
    | '%' :: rest => printOnce name fuel (← printDirective name rest)
    | c :: rest =>
      say [c]
      printOnce name fuel rest

/-- Goes through a form as long as there are arguments that it uses. -/
def printAll (name form : Text) : Nat → Printing Unit
  | 0 => return ()
  | fuel + 1 => do
    let before := (← get).args.length
    printOnce name (form.length + 1) form
    let s ← get
    if s.ended || s.args.isEmpty then return ()
    if s.args.length = before then
      toolSays name ("warning: ignoring excess arguments, starting with ".toList ++ cited (s.args.headD []))
      return ()
    printAll name form fuel

def printfTool : Utility := fun _ name args => do
  let args := if args.head? = some ['-', '-'] then args.drop 1 else args
  match args with
  | [] => misused name 1 "missing operand".toList
  | form :: args =>
    let ((), s) ← (printAll name form (args.length + 1)).run { args }
    return if s.failed then 1 else 0

end Amalgam.Script
