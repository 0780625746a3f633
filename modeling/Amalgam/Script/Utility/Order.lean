import Amalgam.Script.Floating
import Amalgam.Script.Utility

/-!
# Orders of lines

How lines can be compared: as texts, as numbers of several kinds, as names of months or as versions.
-/

namespace Amalgam.Script

def textOrder : Text → Text → Ordering
  | [], [] => .eq
  | [], _ :: _ => .lt
  | _ :: _, [] => .gt
  | a :: as, b :: bs => if a = b then textOrder as bs else if a < b then .lt else .gt

/-- The order in which the first of two decides, unless it does not. -/
def thenOrder (first : Ordering) (second : Unit → Ordering) : Ordering :=
  match first with
  | .eq => second ()
  | _ => first

def flipped : Ordering → Ordering
  | .lt => .gt
  | .eq => .eq
  | .gt => .lt

def natOrder (a b : Nat) : Ordering :=
  if a < b then .lt else if b < a then .gt else .eq

def intOrder (a b : Int) : Ordering :=
  if a < b then .lt else if b < a then .gt else .eq

/-! ### Numbers -/

/-- A decimal number without an exponent: the value is `digits / 10 ^ places`, with a sign. -/
structure Decimal where
  negative : Bool := false
  digits : Nat := 0
  places : Nat := 0
  deriving DecidableEq, Repr

/-- The number as a whole number of units, of which ten to the power of `places` make one. -/
def Decimal.scaled (d : Decimal) (places : Nat) : Int :=
  let n : Int := d.digits * Nat.pow 10 (places - d.places)
  if d.negative then -n else n

def Decimal.order (a b : Decimal) : Ordering :=
  let places := max a.places b.places
  intOrder (a.scaled places) (b.scaled places)

def decimalDigits (t : Text) : Nat × Nat × Text :=
  let whole := t.takeWhile Char.isDigit
  match t.drop whole.length with
  | '.' :: rest =>
    let fraction := rest.takeWhile Char.isDigit
    (digitsValue (whole ++ fraction), fraction.length, rest.drop fraction.length)
  | rest => (digitsValue whole, 0, rest)

/-- The number at the start of a text after blanks, and the rest.  What is no number counts as zero. -/
def decimalAt (t : Text) : Decimal × Text :=
  match t.dropWhile isGap with
  | '-' :: rest =>
    let (digits, places, rest) := decimalDigits rest
    (⟨true, digits, places⟩, rest)
  | rest =>
    let (digits, places, rest) := decimalDigits rest
    (⟨false, digits, places⟩, rest)

def numericOrder (a b : Text) : Ordering :=
  (decimalAt a).1.order (decimalAt b).1

/-- The rank of a number with a unit: numbers with a greater unit are greater, whatever they are. -/
def unitRank (t : Text) : Int :=
  let (d, rest) := decimalAt t
  let rank : Int := match rest.head? with
    | some 'k' | some 'K' => 1
    | some 'M' => 2
    | some 'G' => 3
    | some 'T' => 4
    | some 'P' => 5
    | some 'E' => 6
    | some 'Z' => 7
    | some 'Y' => 8
    | _ => 0
  if d.digits = 0 then 0 else if d.negative then -rank else rank

def humanOrder (a b : Text) : Ordering :=
  thenOrder (intOrder (unitRank a) (unitRank b)) fun _ => numericOrder a b

def generalRank : Option (Floating × Text) → Nat
  | none => 0
  | some (.undefined _, _) => 1
  | some _ => 2

/-- The order of the numbers with exponents at the start of texts: what is no number is the least. -/
def generalOrder (a b : Text) : Ordering :=
  let a := floatingAt extendedFormat a
  let b := floatingAt extendedFormat b
  thenOrder (natOrder (generalRank a) (generalRank b)) fun _ =>
    match a, b with
    | some (x, _), some (y, _) => (x.order? y).getD .eq
    | _, _ => .eq

/-! ### Months and versions -/

/-- The number of the month whose name starts a text; zero if there is none. -/
def monthAt (t : Text) : Nat :=
  let word := ((t.dropWhile isGap).take 3).map Char.toUpper
  match ["JAN", "FEB", "MAR", "APR", "MAY", "JUN", "JUL", "AUG", "SEP", "OCT", "NOV", "DEC"].findIdx?
      fun name => name.toList = word with
  | some i => i + 1
  | none => 0

def monthOrder (a b : Text) : Ordering :=
  natOrder (monthAt a) (monthAt b)

def versionRank : Text → Int
  | [] => -1
  | c :: _ =>
    if c.isDigit then 0 else if c.isAlpha then c.toNat else if c = '~' then -2 else c.toNat + 256

/-- The order of versions: parts without digits and numbers take turns; `fuel` bounds the number of steps. -/
def versionPartsOrder : Nat → Text → Text → Ordering
  | 0, _, _ => .eq
  | _ + 1, [], [] => .eq
  | fuel + 1, a, b =>
    let starts (t : Text) : Bool := match t with
      | c :: _ => !c.isDigit
      | [] => false
    if starts a || starts b then
      match intOrder (versionRank a) (versionRank b) with
      | .eq => versionPartsOrder fuel (a.drop 1) (b.drop 1)
      | decided => decided
    else
      let a := a.dropWhile (· == '0')
      let b := b.dropWhile (· == '0')
      let m := a.takeWhile Char.isDigit
      let n := b.takeWhile Char.isDigit
      thenOrder (natOrder m.length n.length) fun _ =>
        thenOrder (textOrder m n) fun _ => versionPartsOrder fuel (a.drop m.length) (b.drop n.length)

def isEnding (t : Text) : Bool :=
  match t with
  | c :: rest => (c.isAlpha || c == '~') && rest.all fun c => c.isAlphanum || c == '~'
  | [] => false

def stemLength (t : Text) : Nat :=
  let pieces := splitAt '.' t
  let endings := (pieces.drop 1).reverse.takeWhile isEnding
  t.length - endings.foldl (fun n piece => n + piece.length + 1) 0

def versionOrder (a b : Text) : Ordering :=
  let plain (a b : Text) : Ordering :=
    let parts (x y : Text) : Ordering := versionPartsOrder (x.length + y.length + 1) x y
    let stem (t : Text) : Text := t.take (stemLength t)
    thenOrder (parts (stem a) (stem b)) fun _ => parts a b
  let hidden (t : Text) : Nat :=
    match t with
    | [] => 0
    | ['.'] => 1
    | ['.', '.'] => 2
    | '.' :: _ => 3
    | _ => 4
  thenOrder (natOrder (hidden a) (hidden b)) fun _ =>
    if hidden a = 3 then plain (a.drop 1) (b.drop 1) else if hidden a = 4 then plain a b else .eq

end Amalgam.Script
