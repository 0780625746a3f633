import Amalgam.Script.Whole

/-!
# Places among options

Arguments are read as options one letter at a time: an argument that starts with a dash has letters, and the
options end at the first argument that has none.  A place says how far they were read.
-/

namespace Amalgam.Script

/-- How far arguments were read as options. -/
structure OptionPlace where
  /-- The number of the next argument; the first one has number one. -/
  index : Nat := 1
  /-- How many characters of the argument before it were read, unless it is done with. -/
  offset : Option Nat := none
  deriving DecidableEq, Repr

/-- What stands at a place among arguments. -/
inductive OptionFound where
  | finished
  | unknown (letter : Char)
  /-- An option without the value that it takes. -/
  | lacking (letter : Char)
  | plain (letter : Char)
  | valued (letter : Char) (value : Text)
  deriving DecidableEq, Repr

/-- The place at an argument whose number is written; zero means one. -/
def OptionPlace.ofText? (t : Text) : Option OptionPlace :=
  match wholeNumber? false t with
  | some n => if 0 ≤ n ∧ n < 0x80000000 then some { index := max n.toNat 1 } else none
  | none => none

/-- The place, if it is one of some arguments; else their start. -/
def OptionPlace.within (place : OptionPlace) (words : List Text) : OptionPlace :=
  if words.length + 1 < place.index then {} else place

/-- Does a letter take a value?  None if it is no option.  A colon after a letter says that it does. -/
def takesValue? (letter : Char) : Text → Option Bool
  | [] => none
  | c :: ':' :: rest => if c = letter then some true else takesValue? letter rest
  | c :: rest => if c = letter then some false else takesValue? letter rest

/-- The letters of the argument before a place that are still to be read. -/
def OptionPlace.pending (place : OptionPlace) (words : List Text) : Text :=
  match place.offset with
  | some n => if place.index ≤ 1 then [] else (words.getD (place.index - 2) []).drop n
  | none => []

/-- What the first of some letters is, and the place after it.  The letters are the end of the argument before
the place `index`. -/
def readOption (letters : Text) (words : List Text) (index : Nat) (c : Char) (rest : Text) :
    OptionFound × OptionPlace :=
  let after : OptionPlace :=
    { index, offset := some ((words.getD (index - 2) []).length - rest.length) }
  match takesValue? c letters, rest, words[index - 1]? with
  | none, _, _ => (.unknown c, after)
  | some false, _, _ => (.plain c, after)
  | some true, _ :: _, _ => (.valued c rest, { index })
  | some true, [], some value => (.valued c value, { index := index + 1 })
  | some true, [], none => (.lacking c, { index })

def OptionPlace.next (place : OptionPlace) (letters : Text) (words : List Text) : OptionFound × OptionPlace :=
  match place.pending words with
  | c :: rest => readOption letters words place.index c rest
  | [] =>
    match words[place.index - 1]? with
    | some ['-', '-'] => (.finished, { index := place.index + 1 })
    | some ('-' :: c :: rest) => readOption letters words (place.index + 1) c rest
    | _ => (.finished, { index := place.index })

end Amalgam.Script
