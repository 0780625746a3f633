import Amalgam.Script.Text

/-!
# The calendar

Points of time are microseconds since the beginning of 1970, in universal time.  A point of time has a date
and a time of day, and can be written in a form that directives describe.
-/

namespace Amalgam.Script

/-- A date. -/
structure Date where
  year : Int
  month : Nat
  day : Nat
  deriving DecidableEq, Repr

/-- How many days of a year come before the first day of March, counted from the first of March of the year
before. -/
def marchOffset (month : Nat) : Nat :=
  (153 * ((month + 9) % 12) + 2) / 5

/-- The number of a day since the beginning of 1970.  The day may lie outside of its month. -/
def dayNumber (year : Int) (month : Nat) (day : Int) : Int :=
  let y := if month ≤ 2 then year - 1 else year
  let era := y.fdiv 400
  let ofEra := y - era * 400
  era * 146097 + (ofEra * 365 + ofEra / 4 - ofEra / 100 + marchOffset month + day - 1) - 719468

def Date.ofDay (n : Int) : Date :=
  let z := n + 719468
  let era := z.fdiv 146097
  let day := z - era * 146097
  let year := (day - day / 1460 + day / 36524 - day / 146096) / 365
  let rest := (day - (365 * year + year / 4 - year / 100)).toNat
  let shifted := (5 * rest + 2) / 153
  let month := if shifted < 10 then shifted + 3 else shifted - 9
  { year := year + era * 400 + (if month ≤ 2 then 1 else 0)
    month
    day := rest - (153 * shifted + 2) / 5 + 1 }

/-- A date with a time of day. -/
structure Moment where
  date : Date
  hour : Nat
  minute : Nat
  second : Nat
  micros : Nat
  /-- The seconds since the beginning of 1970. -/
  seconds : Int

def Moment.ofTime (time : Int) : Moment :=
  let seconds := time.fdiv 1000000
  let day := seconds.fdiv 86400
  let rest := (seconds - day * 86400).toNat
  { date := Date.ofDay day
    hour := rest / 3600
    minute := rest / 60 % 60
    second := rest % 60
    micros := (time - seconds * 1000000).toNat
    seconds }

namespace Moment

def day (m : Moment) : Int :=
  m.seconds.fdiv 86400

def weekday (m : Moment) : Nat :=
  ((m.day + 4) % 7).toNat

def yearDay (m : Moment) : Nat :=
  (m.day - dayNumber m.date.year 1 1).toNat

/-- The year and the number of the week, where weeks start on Monday and belong to the year of their
Thursday. -/
def week (m : Moment) : Int × Nat :=
  let weekday := ((m.weekday + 6) % 7 : Nat)
  let thursday := m.day - weekday + 3
  let year := (Date.ofDay thursday).year
  (year, ((thursday - dayNumber year 1 1) / 7).toNat + 1)

end Moment

def monthNames : List String :=
  ["January", "February", "March", "April", "May", "June", "July", "August", "September", "October",
    "November", "December"]

def dayNames : List String :=
  ["Sunday", "Monday", "Tuesday", "Wednesday", "Thursday", "Friday", "Saturday"]

/-- How a directive is changed by what stands before its letter. -/
structure DirectiveStyle where
  /-- What fills a number up: a character, or nothing at all; otherwise the usual. -/
  fill : Option (Option Char) := none
  upper : Bool := false
  swapped : Bool := false
  width : Option Nat := none
  colons : Nat := 0

/-- A number with the usual width and filling, unless something else is said. -/
def DirectiveStyle.number (style : DirectiveStyle) (fill : Char) (width : Nat) (n : Int) : Text :=
  let digits := ofNat n.natAbs
  let sign := if n < 0 then ['-'] else []
  match style.fill.getD (some fill) with
  | none => sign ++ digits
  | some c =>
    let filling := List.replicate (style.width.getD width - digits.length - sign.length) c
    if c = ' ' then filling ++ sign ++ digits else sign ++ filling ++ digits

def DirectiveStyle.word (style : DirectiveStyle) (t : Text) : Text :=
  let t := if style.upper then t.map Char.toUpper else t
  let c := if style.fill = some (some '0') then '0' else ' '
  List.replicate (style.width.getD 0 - t.length) c ++ t

/-- The flags, the width and the colons before the letter of a directive, and the rest. -/
def directiveStyle : DirectiveStyle → Text → DirectiveStyle × Text
  | style, c :: rest =>
    match c with
    | '-' => directiveStyle { style with fill := some none } rest
    | '_' => directiveStyle { style with fill := some (some ' ') } rest
    | '^' => directiveStyle { style with upper := true } rest
    | '#' => directiveStyle { style with swapped := true } rest
    | ':' => directiveStyle { style with colons := style.colons + 1 } rest
    | _ =>
      if c = '0' ∧ style.width = none then directiveStyle { style with fill := some (some '0') } rest
      else if c.isDigit then
        directiveStyle { style with width := some (style.width.getD 0 * 10 + (c.toNat - 48)) } rest
      else (style, c :: rest)
  | style, [] => (style, [])

def Moment.clockHour (m : Moment) : Nat :=
  if m.hour % 12 = 0 then 12 else m.hour % 12

def Moment.fraction (m : Moment) (digits : Nat) : Text :=
  let text := ofNat m.micros
  ((List.replicate (6 - text.length) '0' ++ text ++ List.replicate digits '0').take digits)

def zoneText : Nat → String
  | 0 => "+0000"
  | 1 => "+00:00"
  | 2 => "+00:00:00"
  | _ => "+00"

/-- What the letter of a directive stands for, if it does not stand for other directives. -/
def Moment.simple? (m : Moment) (style : DirectiveStyle) (letter : Char) : Option Text :=
  let number (width : Nat) (n : Int) : Option Text := some (style.number '0' width n)
  let word (t : String) : Option Text :=
    some (style.word (if style.swapped then t.toList.map Char.toUpper else t.toList))
  let name (names : List String) (i : Nat) : String := names.getD i ""
  let short (t : String) : String := String.ofList (t.toList.take 3)
  match letter with
  | '%' => some ['%']
  | 'n' => some ['\n']
  | 't' => some ['\t']
  | 'a' => word (short (name dayNames m.weekday))
  | 'A' => word (name dayNames m.weekday)
  | 'b' | 'h' => word (short (name monthNames (m.date.month - 1)))
  | 'B' => word (name monthNames (m.date.month - 1))
  | 'C' => number 2 (m.date.year.fdiv 100)
  | 'd' => number 2 m.date.day
  | 'e' => some (style.number ' ' 2 m.date.day)
  | 'g' => number 2 (m.week.1 % 100)
  | 'G' => number 4 m.week.1
  | 'H' => number 2 m.hour
  | 'I' => number 2 m.clockHour
  | 'j' => number 3 (m.yearDay + 1 : Nat)
  | 'k' => some (style.number ' ' 2 m.hour)
  | 'l' => some (style.number ' ' 2 m.clockHour)
  | 'm' => number 2 m.date.month
  | 'M' => number 2 m.minute
  | 'N' => some (m.fraction (style.width.getD 9))
  | 'p' =>
    let t := if m.hour < 12 then "AM" else "PM"
    some (style.word (if style.swapped then t.toList.map Char.toLower else t.toList))
  | 'P' => some (style.word (if m.hour < 12 then "am" else "pm").toList)
  | 'q' => number 1 ((m.date.month - 1) / 3 + 1 : Nat)
  | 's' => some (style.number '0' 1 m.seconds)
  | 'S' => number 2 m.second
  | 'u' => number 1 (if m.weekday = 0 then 7 else m.weekday : Nat)
  | 'U' => number 2 ((m.yearDay + 7 - m.weekday) / 7 : Nat)
  | 'V' => number 2 m.week.2
  | 'w' => number 1 m.weekday
  | 'W' => number 2 ((m.yearDay + 7 - (m.weekday + 6) % 7) / 7 : Nat)
  | 'y' => number 2 (m.date.year % 100)
  | 'Y' => number 4 m.date.year
  | 'z' => some (zoneText style.colons).toList
  | 'Z' => some (style.word (if style.swapped then "utc".toList else "UTC".toList))
  | _ => none

/-- The directives that the letter of a directive stands for. -/
def compound? : Char → Option String
  | 'c' => some "%a %b %e %H:%M:%S %Y"
  | 'D' | 'x' => some "%m/%d/%y"
  | 'F' => some "%Y-%m-%d"
  | 'r' => some "%I:%M:%S %p"
  | 'R' => some "%H:%M"
  | 'T' | 'X' => some "%H:%M:%S"
  | _ => none

/-- A moment in a form that directives describe, the pieces in reverse order; `fuel` bounds the length of the
description. -/
def Moment.pieces (m : Moment) : Nat → List Text → Text → List Text
  | 0, before, _ => before
  | _ + 1, before, [] => before
  | fuel + 1, before, '%' :: rest =>
    let (style, after) := directiveStyle {} rest
    match after with
    | [] => ('%' :: rest) :: before
    | letter :: later =>
      match m.simple? style letter, compound? letter with
      | some t, _ => m.pieces fuel (t :: before) later
      | none, some description =>
        let t := (m.pieces fuel [] description.toList).reverse.flatten
        m.pieces fuel (style.word t :: before) later
      | none, none =>
        m.pieces fuel (('%' :: rest.take (rest.length - later.length)) :: before) later
  | fuel + 1, before, c :: rest => m.pieces fuel ([c] :: before) rest

def Moment.format (m : Moment) (description : Text) : Text :=
  (m.pieces (description.length + 32) [] description).reverse.flatten

end Amalgam.Script
