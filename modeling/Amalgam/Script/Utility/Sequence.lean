import Amalgam.Script.Format
import Amalgam.Script.Utility

/-!
# Numbers in a row

The program that shows numbers from a first one to a last one.  The numbers are floating ones; how many
places they have is read off the arguments.
-/

namespace Amalgam.Script

/-- An argument: a number, and how much room it takes. -/
structure RowEnd where
  value : Floating
  width : Int := 0
  /-- How many places it has after its point, if that can be said. -/
  places : Option Nat := none

def RowEnd.one : RowEnd := ⟨extendedFormat.ofInt 1, 1, some 0⟩

def withExponent (arg : Text) (fraction : Option Nat) (width places : Int) (e : Nat) : Int × Nat :=
  let (exponent, _) := exponentAt 'e' (arg.drop e)
  let digits := (fraction.getD 0 : Int)
  let newPlaces := if exponent < 0 then places - exponent else places - min places exponent
  let width := width - ((arg.length : Int) - e)
  let width :=
    if exponent < 0 then
      (match fraction with
        | some 0 | none => width + 1
        | some _ => width) - exponent
    else
      (if fraction.isSome && newPlaces = 0 && digits ≠ 0 then width - 1 else width) +
        (exponent - min digits exponent)
  (width, newPlaces.toNat)

def readTerm (arg : Text) : Except Text RowEnd :=
  match floatingAt extendedFormat arg with
  | some (.undefined _, []) => .error ("invalid 'not-a-number' argument: ".toList ++ cited arg)
  | some (value, []) =>
    let text := arg.dropWhile fun c => isSpace c || c == '+'
    let isHex := text.any fun c => c == 'x' || c == 'X'
    let point := text.findIdx? (· == '.')
    let places : Option Nat := if point.isNone && !text.contains 'p' then some 0 else none
    match value with
    | .finite _ _ _ =>
      if isHex then .ok { value, places }
      else
        let e := text.findIdx? fun c => c == 'e' || c == 'E'
        let fraction := point.map fun i =>
          ((text.drop (i + 1)).takeWhile fun c => c != 'e' && c != 'E').length
        let before := match point with
          | some 0 | none => false
          | some (i + 1) => (text[i]?.map Char.isDigit).getD false
        let width : Int := match fraction with
          | none => text.length
          | some 0 => (text.length : Int) - 1
          | some _ => if before then text.length else text.length + 1
        let places := fraction.getD 0
        match e with
        | none => .ok { value, width, places := some places }
        | some e =>
          let (width, places) := withExponent text fraction width places e
          .ok { value, width, places := some places }
    | _ => .ok { value, places }
  | _ => .error ("invalid floating point argument: ".toList ++ cited arg)

/-- How a number is shown: what stands before and after it, and its directive. -/
structure RowFormat where
  before : Text := []
  directive : Directive := {}
  kind : Char := 'g'
  after : Text := []

/-- A number as a format shows it, without what stands before and after it. -/
def RowFormat.number (f : RowFormat) (x : Floating) : Text :=
  f.directive.floating f.kind x

def RowFormat.text (f : RowFormat) (x : Floating) : Text :=
  f.before ++ f.number x ++ f.after

/-- A text in which two percent signs stand for one, up to a single one, and the rest from that on. -/
def plainStart : Nat → Text → Text × Text
  | 0, t => ([], t)
  | fuel + 1, '%' :: '%' :: rest =>
    let (start, rest) := plainStart fuel rest
    ('%' :: start, rest)
  | _ + 1, '%' :: rest => ([], '%' :: rest)
  | fuel + 1, c :: rest =>
    let (start, rest) := plainStart fuel rest
    (c :: start, rest)
  | _ + 1, [] => ([], [])

/-- The format that a text describes, which has to have exactly one directive. -/
def readRowFormat (t : Text) : Except Text RowFormat :=
  let refuse (why : Text) : Except Text RowFormat := .error ("format ".toList ++ cited t ++ why)
  let (before, rest) := plainStart (t.length + 1) t
  match rest with
  | [] => refuse " has no % directive".toList
  | _ :: rest =>
    let isFlag (c : Char) : Bool := "-+#0 '".toList.contains c
    let flags := rest.takeWhile isFlag
    let rest := rest.drop flags.length
    let width := rest.takeWhile Char.isDigit
    let rest := rest.drop width.length
    let (precision, rest) : Option Nat × Text := match rest with
      | '.' :: more =>
        let digits := more.takeWhile Char.isDigit
        (some (digitsValue digits), more.drop digits.length)
      | _ => (none, rest)
    let rest := if rest.head? = some 'L' then rest.drop 1 else rest
    match rest with
    | [] => refuse " ends in %".toList
    | kind :: rest =>
      if !"efgaEFGA".toList.contains kind then refuse (" has unknown %".toList ++ kind :: " directive".toList)
      else
        let (after, more) := plainStart (rest.length + 1) rest
        if more.isEmpty then
          .ok { before, directive := { flags, width := digitsValue width, precision }, kind, after }
        else refuse " has too many % directives".toList

/-- How numbers are shown if nothing is said: with as many places as the arguments have, and with zeros in
front if all are to have the same width. -/
def usualRowFormat (equal : Bool) (first step last : RowEnd) : RowFormat :=
  match first.places, step.places, last.places with
  | some a, some b, some c =>
    let places := max a b
    let width : Int :=
      if !equal then 0
      else
        let firstWidth := first.width + ((places : Int) - a) + (if a = 0 && places ≠ 0 then 1 else 0)
        let lastWidth := last.width + ((places : Int) - c) +
          (if c ≠ 0 && places = 0 then -1 else if c = 0 && places ≠ 0 then 1 else 0)
        max firstWidth lastWidth
    { directive := { flags := if equal then ['0'] else [], width := width.toNat, precision := some places }
      kind := 'f' }
  | _, _, _ => {}

def isPast (step last x : Floating) : Bool :=
  if step.negative? then x.order? last == some .lt else last.order? x == some .lt

/-- The numbers with indices from `i` on as texts, and whether the row has ended; `fuel` bounds their number.
A number just past the last one is shown if it looks like that. -/
def rowFrom (f : RowFormat) (separator : Text) (first step last : Floating) :
    Nat → Nat → Floating → List Text → List Text × Bool
  | 0, _, _, done => (done.reverse, false)
  | fuel + 1, i, before, done =>
    let x := extendedFormat.add first (extendedFormat.mul (extendedFormat.ofInt i) step)
    if !isPast step last x then rowFrom f separator first step last fuel (i + 1) x ((separator ++ f.text x) :: done)
    else
      let shown := f.number x
      let looksLast := match floatingAt extendedFormat shown with
        | some (y, []) => y.order? last == some .eq
        | _ => false
      if looksLast && shown != f.number before then (((separator ++ f.text x) :: done).reverse, true)
      else (done.reverse, true)

def rowPiece : Nat := 2000

/-- Shows numbers from an index on, piece by piece; `fuel` bounds the number of pieces. -/
def sayRow (f : RowFormat) (separator : Text) (first step last : Floating) : Nat → Nat → Run Unit
  | 0, _ => return ()
  | fuel + 1, i => do
    let before := extendedFormat.add first (extendedFormat.mul (extendedFormat.ofInt (i - 1 : Nat)) step)
    let (texts, ended) := rowFrom f separator first step last rowPiece i before []
    say texts.flatten
    if !ended then sayRow f separator first step last fuel (i + rowPiece)

def maxRowPieces : Nat := 1000

def maxWholeStep : Nat := 200

/-- The whole number that an argument stands for, exactly if it is written with digits only. -/
def wholeTerm? (arg : Text) (term : RowEnd) : Option Nat :=
  if !arg.isEmpty && arg.all Char.isDigit then some (digitsValue arg)
  else if term.places == some 0 && !term.value.negative? then term.value.truncated.map Int.toNat
  else none

/-- First number, step and last number of a row of whole numbers; a row without a last one does not end. -/
def wholeRow? (operands : List Text) (first step last : RowEnd) : Option (Nat × Nat × Option Nat) := do
  let arg (i : Nat) : Text := operands[i]?.getD []
  let one : Text := ['1']
  let (a, b) := match operands with
    | [_] => (one, one)
    | [_, _] => (arg 0, one)
    | _ => (arg 0, arg 1)
  let n ← wholeTerm? a first
  let width ← wholeTerm? b step
  if width = 0 || maxWholeStep < width then none
  else
    match last.value with
    | .infinite false => return (n, width, none)
    | _ => return (n, width, some (← wholeTerm? (operands.getLast?.getD []) last))

/-- Shows whole numbers from one on up to a last one, if there is one, piece by piece; `fuel` bounds the
number of pieces. -/
def sayWhole (separator : Char) (step : Nat) (last? : Option Nat) : Nat → Nat → Run Unit
  | 0, _ => return ()
  | fuel + 1, n => do
    let shown := ((List.range rowPiece).map fun i => n + i * step).takeWhile fun m => last?.all (m ≤ ·)
    say (shown.flatMap fun m => separator :: ofNat m)
    if shown.length = rowPiece then sayWhole separator step last? fuel (n + rowPiece * step)

/-- What an option says: the format, the text between numbers, and whether all have the same width. -/
def rowSetting (settings : Option Text × Text × Bool) (key : String) (value : Text) :
    Except (Text × Bool) (Option Text × Text × Bool) :=
  let (format, separator, equal) := settings
  match key with
  | "f" => .ok (some value, separator, equal)
  | "s" => .ok (format, value, equal)
  | _ => .ok (format, separator, true)

def signedOperands : List Text → List Text
  | ['-', '-'] :: rest => ['-', '-'] :: rest
  | ['-', 's'] :: value :: rest => ['-', 's'] :: value :: signedOperands rest
  | ['-', 'f'] :: value :: rest => ['-', 'f'] :: value :: signedOperands rest
  | ('-' :: c :: more) :: rest =>
    if c.isDigit || c == '.' then ['-', '-'] :: ('-' :: c :: more) :: rest
    else ('-' :: c :: more) :: signedOperands rest
  | args => args

def seqTool : Utility := fun _ name args =>
  let spec : OptionSpec :=
    { flags := "w", valued := "fs", leading := true,
      long := [.same "equal-width" 'w', .same "format" 'f', .same "separator" 's'] }
  withSettings spec 1 name (signedOperands args) (none, ['\n'], false) rowSetting
    fun (format, separator, equal) o => do
      if o.operands.isEmpty then return ← misused name 1 "missing operand".toList
      if let some extra := o.operands[3]? then
        return ← misused name 1 ("extra operand ".toList ++ cited extra)
      match format.mapM readRowFormat with
      | .error text => toolFails name 1 text
      | .ok format =>
        if format.isSome && equal then
          return ← misused name 1
            "format string may not be specified when printing equal width strings".toList
        let ends : Except Text (RowEnd × RowEnd × RowEnd) := do
          match o.operands with
          | [last] => return (.one, .one, ← readTerm last)
          | [first, last] => return (← readTerm first, .one, ← readTerm last)
          | [first, step, last] =>
            let first ← readTerm first
            let width ← readTerm step
            if width.value.isZero then throw ("invalid Zero increment value: ".toList ++ cited step)
            return (first, width, ← readTerm last)
          | _ => throw []
        match ends with
        | .error text => misused name 1 text
        | .ok (first, step, last) =>
          let f := format.getD (usualRowFormat equal first step last)
          if isPast step.value last.value first.value then return 0
          match wholeRow? o.operands first step last, separator, format.isNone && !equal with
          | some (n, width, last?), [mark], true =>
            say (ofNat n)
            sayWhole mark width last? maxRowPieces (n + width)
          | _, _, _ =>
            say (f.text first.value)
            sayRow f separator first.value step.value last.value maxRowPieces 1
          say ['\n']
          return 0

end Amalgam.Script
