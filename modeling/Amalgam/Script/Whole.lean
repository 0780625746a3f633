import Amalgam.Script.Text

/-!
# Whole numbers

Texts that write whole numbers of 64 bits with a sign.
-/

namespace Amalgam.Script

def trimSpace (t : Text) : Text :=
  t.dropWhile isSpace

def digitIn (base : Nat) (c : Char) : Option Nat :=
  let n :=
    if c.isDigit then c.toNat - 48
    else if 'a' ≤ c ∧ c ≤ 'f' then c.toNat - 87
    else if 'A' ≤ c ∧ c ≤ 'F' then c.toNat - 55
    else 99
  if n < base then some n else none

def numberIn (base : Nat) (digits : Text) : Nat :=
  digits.foldl (fun n c => n * base + (digitIn base c).getD 0) 0

/-- The digits of a number with their base, and the rest.  A zero in front says that the base is eight, and
`0x` that it is sixteen. -/
def numberAt (t : Text) : Nat × Text :=
  let (base, body) := match t with
    | '0' :: x :: d :: rest =>
      if (x == 'x' || x == 'X') && (digitIn 16 d).isSome then (16, d :: rest) else (8, t)
    | '0' :: _ => (8, t)
    | _ => (10, t)
  let ok (c : Char) : Bool := (digitIn base c).isSome
  (numberIn base (body.takeWhile ok), body.dropWhile ok)

/-- The greatest number of 64 bits with a sign, which stands for all numbers that are greater. -/
def greatest : Nat := 0x7fffffffffffffff

/-- The number of 64 bits with a sign that a number wraps around to. -/
def wrapped (n : Int) : Int :=
  n.bmod 0x10000000000000000

def bitsOf (n : Int) : Nat :=
  (n % 0x10000000000000000).toNat

/-- The number that the whole of a text writes, in any base or in base ten. -/
def wholeNumber? (anyBase : Bool) (t : Text) : Option Int :=
  let (negative, body) := match trimSpace t with
    | '-' :: rest => (true, rest)
    | '+' :: rest => (false, rest)
    | rest => (false, rest)
  let (n, rest) := if anyBase then numberAt body else
    (digitsValue (body.takeWhile Char.isDigit), body.dropWhile Char.isDigit)
  let blank := body.length == rest.length
  if !(trimSpace rest).isEmpty || (blank && !(anyBase && (trimSpace t).isEmpty)) then none
  else
    let value : Int := if negative then -(n : Int) else n
    if wrapped value = value then some value else none

end Amalgam.Script
