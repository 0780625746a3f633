/-!
# Scalars of TOML

Values that are neither texts nor lists nor tables: whole numbers, numbers with a point or an exponent,
truth values, dates and times.  No setting has such a value, so only their form matters: each reader returns
what follows the scalar at the start of a text.

Whole numbers have 64 bits with a sign.  A number with a point or an exponent must not be so large that its
nearest binary form of 64 bits is infinite; below zero any size is allowed.

## Main definitions

* `digitRun` — digits with single underscores between them
* `afterInteger`, `afterFloat`, `afterDateTime`, `afterWord` — the kinds of scalars
* `readScalar` — a scalar of any kind, as it is written
-/

namespace Amalgam.Toml

/-! ### Digits -/

/-- The digits at the start of a text, without the underscores between them, and the rest. -/
def digitRun (ok : Char → Bool) : List Char → List Char × List Char
  | [] => ([], [])
  | '_' :: d :: rest =>
    if ok d then
      let (digits, rest) := digitRun ok rest
      (d :: digits, rest)
    else ([], '_' :: d :: rest)
  | c :: rest =>
    if ok c then
      let (digits, rest) := digitRun ok rest
      (c :: digits, rest)
    else ([], c :: rest)

/-- One or more digits, the first of which is no underscore. -/
def someDigits (ok : Char → Bool) (cs : List Char) : Option (List Char × List Char) :=
  match cs with
  | c :: _ => if ok c then some (digitRun ok cs) else none
  | [] => none

/-- The value of one digit. -/
def digitValue (c : Char) : Nat :=
  if c.isDigit then c.toNat - 48 else if c.isUpper then c.toNat - 55 else c.toNat - 87

/-- The number that digits write. -/
def numberOf (base : Nat) (digits : List Char) : Nat :=
  digits.foldl (fun n c => n * base + digitValue c) 0

/-- A digit below a base. -/
def isDigitOf (base : Nat) (c : Char) : Bool :=
  (c.isDigit || ('a' ≤ c && c ≤ 'f') || ('A' ≤ c && c ≤ 'F')) && digitValue c < base

/-- A sign, if there is one: whether it is a minus, and the rest. -/
def optionalSign : List Char → Bool × List Char
  | '+' :: rest => (false, rest)
  | '-' :: rest => (true, rest)
  | rest => (false, rest)

/-! ### Numbers -/

/-- Is the number outside the range of 64 bits with a sign? -/
def exceedsWord (negative : Bool) (n : Nat) : Bool :=
  if negative then 0x8000000000000000 < n else 0x8000000000000000 ≤ n

/-- The digits of a decimal number without a point: no zero stands before other digits. -/
def decimalDigits (cs : List Char) : Option (List Char × List Char) :=
  match cs with
  | '0' :: rest => some (['0'], rest)
  | _ => someDigits Char.isDigit cs

/-- A whole number without a sign, in a base other than ten. -/
def afterBased (base : Nat) (cs : List Char) : Option (List Char) :=
  match someDigits (isDigitOf base) cs with
  | some (digits, rest) => if exceedsWord false (numberOf base digits) then none else some rest
  | none => none

/-- A whole number. -/
def afterInteger (cs : List Char) : Option (List Char) :=
  match cs with
  | '0' :: 'x' :: rest => afterBased 16 rest
  | '0' :: 'o' :: rest => afterBased 8 rest
  | '0' :: 'b' :: rest => afterBased 2 rest
  | _ =>
    let (negative, rest) := optionalSign cs
    match decimalDigits rest with
    | some (digits, rest) => if exceedsWord negative (numberOf 10 digits) then none else some rest
    | none => none

/-- The smallest whole number whose nearest binary form of 64 bits is infinite. -/
def floatLimit : Nat :=
  (1 <<< 1024) - (1 <<< 970)

/-- Is `digits · 10 ^ exponent` at least `floatLimit`?  The number of digits decides unless it is
close. -/
def exceedsFloat (digits : List Char) (exponent : Int) : Bool :=
  let significant := digits.dropWhile (· == '0')
  let size : Int := significant.length + exponent
  if significant.isEmpty || size < 300 then false
  else if 320 < size then true
  else if 0 ≤ exponent then
    decide (floatLimit ≤ numberOf 10 significant * Nat.pow 10 exponent.toNat)
  else decide (floatLimit * Nat.pow 10 (-exponent).toNat ≤ numberOf 10 significant)

/-- The digits after a point, if there is one. -/
def fraction (cs : List Char) : Option (List Char × List Char) :=
  match cs with
  | '.' :: rest => someDigits Char.isDigit rest
  | _ => some ([], cs)

/-- The exponent, if there is one. -/
def exponentOf (cs : List Char) : Option (Int × List Char) :=
  match cs with
  | c :: rest =>
    if c = 'e' ∨ c = 'E' then
      let (negative, rest) := optionalSign rest
      (someDigits Char.isDigit rest).map fun (digits, rest) =>
        let n : Int := numberOf 10 digits
        (if negative then -n else n, rest)
    else some (0, cs)
  | [] => some (0, cs)

/-- A number with a point or an exponent, or a number that is infinite or none. -/
def afterFloat (cs : List Char) : Option (List Char) :=
  let (negative, unsigned) := optionalSign cs
  match unsigned with
  | 'i' :: 'n' :: 'f' :: rest => some rest
  | 'n' :: 'a' :: 'n' :: rest => some rest
  | _ => do
    let (whole, afterWhole) ← decimalDigits unsigned
    let (part, afterPart) ← fraction afterWhole
    let (exponent, rest) ← exponentOf afterPart
    if rest.length = afterWhole.length then none
    else if !negative && exceedsFloat (whole ++ part) (exponent - part.length) then none
    else some rest

/-! ### Dates and times -/

/-- A number of exactly `count` digits in a range. -/
def afterField (count low high : Nat) (cs : List Char) : Option (Nat × List Char) :=
  let digits := cs.take count
  let n := numberOf 10 digits
  if digits.length = count && digits.all Char.isDigit && low ≤ n && n ≤ high then
    some (n, cs.drop count)
  else none

/-- What follows a character that has to be there. -/
def afterChar (c : Char) (cs : List Char) : Option (List Char) :=
  match cs with
  | d :: rest => if d = c then some rest else none
  | [] => none

/-- The number of days of a month. -/
def daysOf (year month : Nat) : Nat :=
  if month = 2 then
    if year % 4 = 0 ∧ (year % 100 ≠ 0 ∨ year % 400 = 0) then 29 else 28
  else if month = 4 ∨ month = 6 ∨ month = 9 ∨ month = 11 then 30
  else 31

/-- A date. -/
def afterDate (cs : List Char) : Option (List Char) := do
  let (year, rest) ← afterField 4 0 9999 cs
  let (month, rest) ← afterField 2 1 12 (← afterChar '-' rest)
  let (_, rest) ← afterField 2 1 (daysOf year month) (← afterChar '-' rest)
  return rest

/-- A time of day.  A minute may have a sixty-first second. -/
def afterTime (cs : List Char) : Option (List Char) := do
  let (_, rest) ← afterField 2 0 23 cs
  let (_, rest) ← afterField 2 0 59 (← afterChar ':' rest)
  let (_, rest) ← afterField 2 0 60 (← afterChar ':' rest)
  match rest with
  | '.' :: d :: more => if d.isDigit then return more.dropWhile Char.isDigit else return rest
  | _ => return rest

/-- The distance from universal time. -/
def afterOffset (cs : List Char) : Option (List Char) :=
  match cs with
  | 'Z' :: rest => some rest
  | 'z' :: rest => some rest
  | c :: rest =>
    if c = '+' ∨ c = '-' then do
      let (_, rest) ← afterField 2 0 23 rest
      let (_, rest) ← afterField 2 0 59 (← afterChar ':' rest)
      return rest
    else none
  | [] => none

/-- A date, perhaps with a time and the distance from universal time, or a time. -/
def afterDateTime (cs : List Char) : Option (List Char) :=
  match afterDate cs with
  | none => afterTime cs
  | some rest =>
    match rest with
    | c :: later =>
      if c = 'T' ∨ c = 't' ∨ c = ' ' then
        match afterTime later with
        | some rest => some ((afterOffset rest).getD rest)
        | none => some rest
      else some rest
    | [] => some []

/-! ### All kinds -/

/-- A truth value. -/
def afterWord (cs : List Char) : Option (List Char) :=
  match cs with
  | 't' :: 'r' :: 'u' :: 'e' :: rest => some rest
  | 'f' :: 'a' :: 'l' :: 's' :: 'e' :: rest => some rest
  | _ => none

/-- What follows a scalar of any kind. -/
def afterScalar (cs : List Char) : Option (List Char) :=
  (afterDateTime cs).orElse fun _ =>
    (afterFloat cs).orElse fun _ =>
      (afterInteger cs).orElse fun _ => afterWord cs

/-- A scalar as it is written, and what follows it. -/
def readScalar (cs : List Char) : Option (List Char × List Char) :=
  (afterScalar cs).map fun rest => (cs.take (cs.length - rest.length), rest)

end Amalgam.Toml
