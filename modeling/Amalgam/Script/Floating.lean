import Amalgam.Script.Text

/-!
# Floating numbers

Numbers of a binary format: a sign, a mantissa with a bounded number of bits, and an exponent.  Every
operation is done exactly, on fractions, and its result is rounded once to the nearest number of the format;
of two that are equally near, the one with an even mantissa is taken.
-/

namespace Amalgam.Script

/-- A number of a binary format, or what is none. -/
inductive Floating where
  /-- The value is `mantissa * 2 ^ exponent`, with a sign. -/
  | finite (negative : Bool) (mantissa : Nat) (exponent : Int)
  | infinite (negative : Bool)
  | undefined (negative : Bool)
  deriving DecidableEq, Repr

/-- A binary format. -/
structure BinaryFormat where
  bits : Nat
  /-- The least exponent of the last bit. -/
  least : Int
  /-- All numbers are below two to this power. -/
  greatest : Int
  deriving DecidableEq, Repr

def doubleFormat : BinaryFormat := ⟨53, -1074, 1024⟩

def extendedFormat : BinaryFormat := ⟨64, -16445, 16384⟩

/-- A quotient rounded to the nearest whole number; a half goes to the even neighbour. -/
def divideRounded (num den : Nat) : Nat :=
  let q := num / den
  let r := num % den
  if 2 * r < den then q else if den < 2 * r then q + 1 else if q % 2 = 0 then q else q + 1

/-- A fraction times a power of a base, as a fraction. -/
def scaledBy (base : Nat) (exponent : Int) (num den : Nat) : Nat × Nat :=
  if exponent < 0 then (num, den * Nat.pow base exponent.natAbs) else (num * Nat.pow base exponent.toNat, den)

/-- The nearest number of a format to a fraction with a sign. -/
def BinaryFormat.round (f : BinaryFormat) (negative : Bool) (num den : Nat) : Floating :=
  if num = 0 then .finite negative 0 0
  else
    let size : Int := (num.log2 : Int) - den.log2
    let (a, b) := scaledBy 2 (-size) num den
    let fits := if b ≤ a then size - f.bits + 1 else size - f.bits
    let exponent := max fits f.least
    let (a, b) := scaledBy 2 (-exponent) num den
    let mantissa := divideRounded a b
    if f.greatest ≤ (mantissa.log2 : Int) + exponent ∧ mantissa ≠ 0 then .infinite negative
    else .finite negative mantissa exponent

def binaryFraction (mantissa : Nat) (exponent : Int) : Nat × Nat :=
  scaledBy 2 exponent mantissa 1

namespace Floating

def zero : Floating := .finite false 0 0

def negative? : Floating → Bool
  | finite negative _ _ | infinite negative | undefined negative => negative

def isZero : Floating → Bool
  | finite _ mantissa _ => mantissa == 0
  | _ => false

/-- The mantissa with its sign, for a smaller exponent. -/
def units (low : Int) : Floating → Int
  | finite negative mantissa exponent =>
    let n : Int := mantissa * Nat.pow 2 (exponent - low).toNat
    if negative then -n else n
  | _ => 0

/-- How two numbers are related; nothing if one of them is none. -/
def order? : Floating → Floating → Option Ordering
  | undefined _, _ | _, undefined _ => none
  | infinite a, infinite b => some (if a = b then .eq else if a then .lt else .gt)
  | infinite a, finite _ _ _ => some (if a then .lt else .gt)
  | finite _ _ _, infinite b => some (if b then .gt else .lt)
  | finite na ma ea, finite nb mb eb =>
    let low := min ea eb
    let a := (finite na ma ea).units low
    let b := (finite nb mb eb).units low
    some (if a < b then .lt else if b < a then .gt else .eq)

/-- The whole part, towards zero; nothing if there is none. -/
def truncated : Floating → Option Int
  | finite negative mantissa exponent =>
    let (num, den) := binaryFraction mantissa exponent
    let n : Int := (num / den : Nat)
    some (if negative then -n else n)
  | _ => none

end Floating

namespace BinaryFormat

def ofInt (f : BinaryFormat) (n : Int) : Floating :=
  f.round (decide (n < 0)) n.natAbs 1

/-- The nearest number to `digits * 10 ^ exponent`, with a sign. -/
def ofDecimal (f : BinaryFormat) (negative : Bool) (digits : Nat) (exponent : Int) : Floating :=
  let (num, den) := scaledBy 10 exponent digits 1
  f.round negative num den

/-- The number of a format that is nearest to a number of another one. -/
def ofFloating (f : BinaryFormat) : Floating → Floating
  | .finite negative mantissa exponent =>
    let (num, den) := binaryFraction mantissa exponent
    f.round negative num den
  | other => other

def add (f : BinaryFormat) : Floating → Floating → Floating
  | .undefined n, _ => .undefined n
  | _, .undefined n => .undefined n
  | .infinite a, .infinite b => if a = b then .infinite a else .undefined true
  | .infinite a, _ => .infinite a
  | _, .infinite b => .infinite b
  | .finite na ma ea, .finite nb mb eb =>
    let low := min ea eb
    let sum := (Floating.finite na ma ea).units low + (Floating.finite nb mb eb).units low
    if sum = 0 then .finite (na && nb) 0 0
    else
      let (num, den) := binaryFraction sum.natAbs low
      f.round (decide (sum < 0)) num den

def mul (f : BinaryFormat) : Floating → Floating → Floating
  | .undefined n, _ => .undefined n
  | _, .undefined n => .undefined n
  | .infinite a, b => if b.isZero then .undefined true else .infinite (a != b.negative?)
  | a, .infinite b => if a.isZero then .undefined true else .infinite (a.negative? != b)
  | .finite na ma ea, .finite nb mb eb =>
    let (num, den) := binaryFraction (ma * mb) (ea + eb)
    f.round (na != nb) num den

end BinaryFormat

/-! ### Reading -/

def exponentAt (mark : Char) (t : Text) : Int × Text :=
  match t with
  | e :: rest =>
    if e.toLower ≠ mark then (0, t)
    else
      let (negative, digits) := match rest with
        | '-' :: more => (true, more)
        | '+' :: more => (false, more)
        | _ => (false, rest)
      match digits.takeWhile Char.isDigit with
      | [] => (0, t)
      | found =>
        let n : Int := digitsValue found
        (if negative then -n else n, digits.drop found.length)
  | [] => (0, t)

def hexValue (c : Char) : Nat :=
  if c.isDigit then c.toNat - 48 else c.toLower.toNat - 87

def isHexDigit (c : Char) : Bool :=
  c.isDigit || ('a' ≤ c.toLower && c.toLower ≤ 'f')

/-- How far exponents go before a number counts as zero or as infinite. -/
def maxExponent : Nat := 20000

/-- The digits at the start of a text before and after a point, and the rest.  There has to be one. -/
def digitsAround (isDigit : Char → Bool) (t : Text) : Option (Text × Text × Text) :=
  let whole := t.takeWhile isDigit
  let rest := t.drop whole.length
  let fraction := if rest.head? = some '.' then (rest.drop 1).takeWhile isDigit else []
  if whole.isEmpty && fraction.isEmpty then none
  else some (whole, fraction, if rest.head? = some '.' then rest.drop (1 + fraction.length) else rest)

/-- The number at the start of a text, rounded to a format, and the rest. -/
def floatingAt (f : BinaryFormat) (t : Text) : Option (Floating × Text) :=
  let start := t.dropWhile isSpace
  let (negative, body) := match start with
    | '-' :: rest => (true, rest)
    | '+' :: rest => (false, rest)
    | _ => (false, start)
  let word := (body.take 8).map Char.toLower
  if "infinity".toList = word then some (.infinite negative, body.drop 8)
  else if "inf".toList.isPrefixOf word then some (.infinite negative, body.drop 3)
  else if "nan".toList.isPrefixOf word then
    let rest := body.drop 3
    let inside := (rest.drop 1).takeWhile fun c => c.isAlphanum || c == '_'
    let closed := rest.head? = some '(' && (rest.drop (1 + inside.length)).head? = some ')'
    some (.undefined negative, if closed then rest.drop (inside.length + 2) else rest)
  else
    let hex? := match body with
      | '0' :: x :: rest => if x.toLower = 'x' then digitsAround isHexDigit rest else none
      | _ => none
    match hex? with
    | some (whole, fraction, rest) =>
      let (exponent, rest) := exponentAt 'p' rest
      let mantissa := (whole ++ fraction).foldl (fun n c => n * 16 + hexValue c) 0
      let exponent := exponent - 4 * (fraction.length : Int)
      let value : Floating :=
        if mantissa = 0 then .finite negative 0 0
        else if (maxExponent : Int) < exponent then .infinite negative
        else if exponent + mantissa.log2 < -(maxExponent : Int) then .finite negative 0 0
        else f.ofFloating (.finite negative mantissa exponent)
      some (value, rest)
    | none =>
      (digitsAround Char.isDigit body).map fun (whole, fraction, rest) =>
        let (exponent, rest) := exponentAt 'e' rest
        let digits := digitsValue (whole ++ fraction)
        let exponent := exponent - (fraction.length : Int)
        let value : Floating :=
          if digits = 0 then .finite negative 0 0
          else if (maxExponent : Int) < exponent then .infinite negative
          else if exponent + (whole.length + fraction.length : Nat) < -(maxExponent : Int) then
            .finite negative 0 0
          else f.ofDecimal negative digits exponent
        (value, rest)

/-! ### Writing -/

def zeroFilled (width : Nat) (t : Text) : Text :=
  List.replicate (width - t.length) '0' ++ t

/-- Digits with a point before the last `places` of them; `point` asks for the point even if none follow. -/
def withPoint (places : Nat) (point : Bool) (n : Nat) : Text :=
  let digits := zeroFilled (places + 1) (ofNat n)
  let whole := digits.take (digits.length - places)
  if places = 0 then (if point then whole ++ ['.'] else whole)
  else whole ++ '.' :: digits.drop (digits.length - places)

/-- A fraction with a number of places after the point. -/
def fixedText (places : Nat) (point : Bool) (num den : Nat) : Text :=
  withPoint places point (divideRounded (num * Nat.pow 10 places) den)

/-- The exponent of the first decimal digit of a fraction that is not zero. -/
def decimalExponent (num den : Nat) : Int :=
  let size : Int := (num.log2 : Int) - den.log2
  let guess := ((size - 1) * 30103).fdiv 100000
  let reaches (k : Int) : Bool :=
    let (a, b) := scaledBy 10 (-k) num den
    b ≤ a
  ([guess + 2, guess + 1, guess].find? reaches).getD (guess - 1)

/-- The digits of a fraction, one before the point and `places` after it, and the exponent. -/
def scientificDigits (places : Nat) (num den : Nat) : Nat × Int :=
  if num = 0 then (0, 0)
  else
    let exponent := decimalExponent num den
    let (a, b) := scaledBy 10 ((places : Int) - exponent) num den
    let n := divideRounded a b
    if n = Nat.pow 10 (places + 1) then (Nat.pow 10 places, exponent + 1) else (n, exponent)

def exponentText (mark : Char) (exponent : Int) : Text :=
  mark :: (if exponent < 0 then '-' else '+') :: zeroFilled 2 (ofNat exponent.natAbs)

def scientificText (places : Nat) (point : Bool) (num den : Nat) : Text :=
  let (n, exponent) := scientificDigits places num den
  withPoint places point n ++ exponentText 'e' exponent

def withoutZeros (t : Text) : Text :=
  if !t.contains '.' then t
  else
    let t := (t.reverse.dropWhile (· == '0'))
    (if t.head? = some '.' then t.drop 1 else t).reverse

/-- A fraction with a number of digits, with an exponent only if it is very small or very large.  Zeros at
the end are left out unless `point` is set. -/
def generalText (digits : Nat) (point : Bool) (num den : Nat) : Text :=
  let digits := max 1 digits
  let (n, exponent) := scientificDigits (digits - 1) num den
  let trim (t : Text) : Text := if point then t else withoutZeros t
  if -4 ≤ exponent ∧ exponent < digits then
    trim (fixedText ((digits : Int) - 1 - exponent).toNat point num den)
  else trim (withPoint (digits - 1) point n) ++ exponentText 'e' exponent

/-- A number in base sixteen with a binary exponent: one digit before the point, and `places` after it, or as
many as are needed. -/
def hexText (places : Option Nat) (point : Bool) (mantissa : Nat) (exponent : Int) : Text :=
  if mantissa = 0 then
    let zeros := List.replicate (places.getD 0) '0'
    "0x0".toList ++ (if zeros.isEmpty && !point then [] else '.' :: zeros) ++ "p+0".toList
  else
    let size : Int := mantissa.log2
    -- The mantissa has its first bit before the point and 52 after it.
    let (a, b) := scaledBy 2 (52 - size) mantissa 1
    let n := a / b
    let n := match places with
      | some p => if p < 13 then divideRounded n (Nat.pow 16 (13 - p)) * Nat.pow 16 (13 - p) else n
      | none => n
    let digits := zeroFilled 13 (Nat.toDigits 16 (n % Nat.pow 2 52))
    let digits := match places with
      | some p => (digits ++ List.replicate (p - 13) '0').take p
      | none => (digits.reverse.dropWhile (· == '0')).reverse
    let power := exponent + size
    "0x".toList ++ Nat.toDigits 16 (n / Nat.pow 2 52) ++ (if digits.isEmpty && !point then [] else '.' :: digits) ++
      'p' :: (if power < 0 then '-' else '+') :: ofNat power.natAbs

end Amalgam.Script
