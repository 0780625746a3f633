import Amalgam.Script.Arithmetic
import Amalgam.Script.Floating

/-!
# Formats

Texts with escapes, and formats whose directives are replaced by arguments.  A format is used again as long
as there are arguments left; a missing argument is empty or zero.
-/

namespace Amalgam.Script

/-! ### Escapes -/

def isOctal (c : Char) : Bool :=
  '0' ≤ c && c ≤ '7'

/-- The character that an escape stands for, after its backslash, and the rest.  A backslash before any
other character stands for itself. -/
def escapeAt (t : Text) : Char × Text :=
  match t with
  | [] => ('\\', [])
  | c :: rest =>
    if isOctal c then
      let digits := (t.take 3).takeWhile isOctal
      (Char.ofNat (numberIn 8 digits % 256), t.drop digits.length)
    else
      match c with
      | '\\' => ('\\', rest)
      | 'a' => (Char.ofNat 7, rest)
      | 'b' => (Char.ofNat 8, rest)
      | 'e' => (Char.ofNat 27, rest)
      | 'f' => (Char.ofNat 12, rest)
      | 'n' => ('\n', rest)
      | 'r' => ('\r', rest)
      | 't' => ('\t', rest)
      | 'v' => (Char.ofNat 11, rest)
      | _ => ('\\', t)

/-- A text with its escapes replaced, and whether it asked for the end of all output.  Here an octal number
may have a zero in front of its three digits. -/
def unescapedFrom : Nat → Text → Text × Bool
  | 0, _ => ([], false)
  | _ + 1, [] => ([], false)
  | fuel + 1, '\\' :: rest =>
    match rest with
    | 'c' :: _ => ([], true)
    | _ =>
      let body := match rest with
        | '0' :: d :: later => if isOctal d then d :: later else rest
        | _ => rest
      let (c, rest) := escapeAt body
      let (text, ended) := unescapedFrom fuel rest
      (c :: text, ended)
  | fuel + 1, c :: rest =>
    let (text, ended) := unescapedFrom fuel rest
    (c :: text, ended)

/-- A text with its escapes replaced, and whether it asked for the end of all output. -/
def unescaped (t : Text) : Text × Bool :=
  unescapedFrom (t.length + 1) t

/-- Texts with their escapes replaced and a blank between neighbours, up to the end of all output. -/
def unescapedWords : List Text → Text × Bool
  | [] => ([], false)
  | [t] => unescaped t
  | t :: rest =>
    match unescaped t with
    | (text, true) => (text, true)
    | (text, false) =>
      let (later, ended) := unescapedWords rest
      (text ++ ' ' :: later, ended)

/-! ### Directives -/

/-- How an argument is shown. -/
structure Directive where
  flags : Text := []
  width : Nat := 0
  precision : Option Nat := none
  deriving DecidableEq, Repr

def Directive.has (d : Directive) (flag : Char) : Bool :=
  d.flags.contains flag

def Directive.fill (d : Directive) (t : Text) : Text :=
  let gap := List.replicate (d.width - t.length) ' '
  if d.has '-' then t ++ gap else gap ++ t

def Directive.text (d : Directive) (t : Text) : Text :=
  d.fill (match d.precision with
    | some n => t.take n
    | none => t)

/-- Digits with their sign in front, filled with zeros or blanks.  Zero in no digits at all is empty. -/
def Directive.digits (d : Directive) (sign digits : Text) : Text :=
  let digits := match d.precision with
    | some n => if n = 0 ∧ digits = ['0'] then [] else List.replicate (n - digits.length) '0' ++ digits
    | none => digits
  if d.has '0' && !d.has '-' && d.precision.isNone then
    sign ++ List.replicate (d.width - sign.length - digits.length) '0' ++ digits
  else d.fill (sign ++ digits)

def digitsIn (base : Nat) (upper : Bool) (n : Nat) : Text :=
  let digits := Nat.toDigits base n
  if upper then digits.map Char.toUpper else digits

def Directive.signed (d : Directive) (n : Int) : Text :=
  let sign := if n < 0 then ['-'] else if d.has '+' then ['+'] else if d.has ' ' then [' '] else []
  d.digits sign (ofNat n.natAbs)

/-- A number in base eight, which starts with a zero if that is asked for. -/
def Directive.octal (d : Directive) (n : Nat) : Text :=
  if !d.has '#' then d.digits [] (digitsIn 8 false n)
  else if n = 0 then { d with precision := d.precision.map (max 1) }.digits [] ['0']
  else d.digits [] ('0' :: digitsIn 8 false n)

def Directive.unsigned (d : Directive) (kind : Char) (n : Int) : Text :=
  let bits := bitsOf n
  match kind with
  | 'o' => d.octal bits
  | 'x' => d.digits (if d.has '#' && bits != 0 then ['0', 'x'] else []) (digitsIn 16 false bits)
  | 'X' => d.digits (if d.has '#' && bits != 0 then ['0', 'X'] else []) (digitsIn 16 true bits)
  | _ => d.digits [] (ofNat bits)

/-- The digits of a number that is not negative, as the letter of a directive says. -/
def floatingDigits (kind : Char) (precision : Option Nat) (point : Bool) (mantissa : Nat) (exponent : Int) :
    Text :=
  let (num, den) := binaryFraction mantissa exponent
  let places := precision.getD 6
  match kind with
  | 'f' => fixedText places point num den
  | 'e' => scientificText places point num den
  | 'a' => hexText precision point mantissa exponent
  | _ => generalText places point num den

def Directive.floating (d : Directive) (kind : Char) (x : Floating) : Text :=
  let sign := if x.negative? then ['-'] else if d.has '+' then ['+'] else if d.has ' ' then [' '] else []
  let cased (t : Text) : Text := if kind.isUpper then t.map Char.toUpper else t
  match x with
  | .finite _ mantissa exponent =>
    let body := cased (floatingDigits kind.toLower d.precision (d.has '#') mantissa exponent)
    if d.has '0' && !d.has '-' then
      let (mark, digits) := if kind.toLower = 'a' then (body.take 2, body.drop 2) else ([], body)
      sign ++ mark ++ List.replicate (d.width - sign.length - body.length) '0' ++ digits
    else d.fill (sign ++ body)
  | .infinite _ => d.fill (sign ++ cased "inf".toList)
  | .undefined _ => d.fill (sign ++ cased "nan".toList)

/-! ### Arguments -/

/-- What a format made so far, and the arguments that are left. -/
structure FormatState where
  made : Text := []
  args : List Text
  failed : Bool := false
  /-- Did an argument ask for the end of all output? -/
  ended : Bool := false

abbrev Formatting := StateT FormatState Run

def nextArgument : Formatting (Option Text) := do
  let s ← get
  set { s with args := s.args.tail }
  return s.args.head?

def badNumber (t : Text) (text : String) : Formatting Unit := do
  complain (t ++ ": ".toList ++ text.toList)
  modify fun s => { s with failed := true }

/-- The next argument as a number.  After a quote stands a character whose code is meant. -/
def nextNumber (signed : Bool) : Formatting Int := do
  match ← nextArgument with
  | none => return 0
  | some t =>
    match t with
    | [] => return 0
    | q :: rest =>
      if q = '"' ∨ q = '\'' then return (((rest.head?.map Char.toNat).getD 0 : Nat) : Int)
      let (negative, body) := match trimSpace t with
        | '-' :: rest => (true, rest)
        | '+' :: rest => (false, rest)
        | rest => (false, rest)
      let (n, rest) := numberAt body
      if body.length = rest.length then badNumber t "expected numeric value"
      else if !rest.isEmpty then badNumber t "not completely converted"
      let value : Int := if negative then -(n : Int) else n
      if signed && wrapped value ≠ value then
        badNumber t "Numerical result out of range"
        return if negative then -0x8000000000000000 else 0x7fffffffffffffff
      else if !signed && 0xffffffffffffffff < n then
        badNumber t "Numerical result out of range"
        return -1
      return value

def nextFloating : Formatting Floating := do
  match ← nextArgument with
  | none | some [] => return .zero
  | some t =>
    match t with
    | '"' :: rest | '\'' :: rest => return doubleFormat.ofInt ((rest.head?.map Char.toNat).getD 0)
    | _ =>
      match floatingAt doubleFormat t with
      | none =>
        badNumber t "expected numeric value"
        return .zero
      | some (x, rest) =>
        let named := (t.any fun c => c.toLower == 'n')
        if !rest.isEmpty then badNumber t "not completely converted"
        else if x matches .infinite _ && !named then badNumber t "Numerical result out of range"
        return x

def make (t : Text) : Formatting Unit :=
  modify fun s => { s with made := s.made ++ t }

/-- A number at the start of a format, or the next argument if a star stands there. -/
def sizeAt (t : Text) : Formatting (Option Int × Text) := do
  match t with
  | '*' :: rest => return (some (← nextNumber true), rest)
  | _ =>
    let digits := t.takeWhile Char.isDigit
    return (if digits.isEmpty then none else some (digitsValue digits), t.dropWhile Char.isDigit)

/-- A directive after its percent sign: how it shows, and the rest from its letter on. -/
def directiveAt (t : Text) : Formatting (Directive × Text) := do
  let isFlag (c : Char) : Bool := "#-+ 0".toList.contains c
  let flags := t.takeWhile isFlag
  let (width, rest) ← sizeAt (t.dropWhile isFlag)
  let width := width.getD 0
  let flags := if width < 0 then '-' :: flags else flags
  match rest with
  | '.' :: rest =>
    let (precision, rest) ← sizeAt rest
    let precision := precision.getD 0
    return ({ flags, width := width.natAbs,
              precision := if precision < 0 then none else some precision.toNat }, rest)
  | _ => return ({ flags, width := width.natAbs }, rest)

/-- Stops because a format cannot be used.  What was made so far comes after the message. -/
def badFormat (text : Text) : Formatting Unit := do
  complain text
  say (← get).made
  setStatus 2
  throw .fault

/-- Shows the next argument as a directive says.  `written` is the directive as it is written. -/
def showArgument (d : Directive) (kind : Char) (written : Text) : Formatting Unit := do
  match kind with
  | 's' => make (d.text ((← nextArgument).getD []))
  | 'c' =>
    match (← nextArgument).getD [] with
    | c :: _ => make (d.fill [c])
    | [] => make (d.fill [Char.ofNat 0])
  | 'b' =>
    let (text, ended) := unescaped ((← nextArgument).getD [])
    make (d.text text)
    modify fun s => { s with ended }
  | 'd' | 'i' => make (d.signed (← nextNumber true))
  | 'o' | 'u' | 'x' | 'X' => make (d.unsigned kind (← nextNumber false))
  | 'a' | 'A' | 'e' | 'E' | 'f' | 'F' | 'g' | 'G' => make (d.floating kind (← nextFloating))
  | _ => badFormat (written ++ ": invalid directive".toList)

def formatOnce : Nat → Text → Formatting Unit
  | 0, _ => return ()
  | fuel + 1, t => do
    if (← get).ended then return ()
    match t with
    | [] => return ()
    | '\\' :: rest =>
      let (c, rest) := escapeAt rest
      make [c]
      formatOnce fuel rest
    | '%' :: '%' :: rest =>
      make ['%']
      formatOnce fuel rest
    | '%' :: rest =>
      let (d, after) ← directiveAt rest
      match after with
      | [] => badFormat "missing format character".toList
      | kind :: later =>
        showArgument d kind ('%' :: rest.take (rest.length - later.length))
        formatOnce fuel later
    | c :: rest =>
      make [c]
      formatOnce fuel rest

def formatAll (t : Text) : Nat → Formatting Unit
  | 0 => return ()
  | fuel + 1 => do
    let before := (← get).args.length
    formatOnce (t.length + 1) t
    let s ← get
    if s.ended || s.args.isEmpty || s.args.length = before then return ()
    formatAll t fuel

/-- Shows a format with its arguments; the status says whether all of them were what they should be. -/
def formatArguments (t : Text) (args : List Text) : Run Nat := do
  let ((), s) ← (formatAll t (args.length + 1)).run { args }
  say s.made
  return if s.failed then 1 else 0

end Amalgam.Script
