import Amalgam.Script.Text

/-!
# Rights

Rights are written as an octal number, or as changes: who is meant, an operator, and what is given or
taken.

    mode    ::=  octal  |  change (, change)*
    change  ::=  [ugoa]* ([+-=] ([rwxXst]* | u | g | o))+
-/

namespace Amalgam.Script

/-- What is given or taken. -/
inductive ModeValue where
  | bits (value : Nat)
  /-- The right to run or to search, if anybody has it already or it is a directory. -/
  | bitsAndRun (value : Nat)
  | copied (who : Nat)
  deriving DecidableEq, Repr

def ModeValue.written : ModeValue → Nat
  | bits value | bitsAndRun value => value
  | copied _ => 0

/-- One change of rights. -/
structure ModeChange where
  /-- Whose rights are meant, as bits; none if that is not said. -/
  who : Nat
  op : Char
  value : ModeValue
  /-- The bits that are written explicitly; a directory loses or gets special rights only if they are. -/
  mentioned : Nat
  deriving DecidableEq, Repr

def allRights : Nat := 0o7777

def whoBits? : Char → Option Nat
  | 'u' => some 0o4700
  | 'g' => some 0o2070
  | 'o' => some 0o1007
  | 'a' => some 0o7777
  | _ => none

def rightBits? : Char → Option Nat
  | 'r' => some 0o444
  | 'w' => some 0o222
  | 'x' => some 0o111
  | 's' => some 0o6000
  | 't' => some 0o1000
  | _ => none

/-- What is given or taken, and the rest of the text. -/
def readModeValue (t : Text) : ModeValue × Text :=
  match t with
  | 'u' :: rest => (.copied 0o700, rest)
  | 'g' :: rest => (.copied 0o070, rest)
  | 'o' :: rest => (.copied 0o007, rest)
  | _ =>
    let isRight (c : Char) : Bool := (rightBits? c).isSome || c == 'X'
    let letters := t.takeWhile isRight
    let bits := letters.foldl (fun n c => n ||| (rightBits? c).getD 0) 0
    (if letters.contains 'X' then .bitsAndRun bits else .bits bits, t.drop letters.length)

/-- The operators of a change with what they give or take; `fuel` bounds their number. -/
def readModeOperators (who : Nat) : Nat → Text → Option (List ModeChange)
  | 0, _ => none
  | _ + 1, [] => some []
  | fuel + 1, op :: rest =>
    if "+-=".toList.contains op then
      let digits := rest.takeWhile fun c => '0' ≤ c && c ≤ '7'
      if who = 0 ∧ !digits.isEmpty then
        let value := digits.foldl (fun n c => n * 8 + (c.toNat - 48)) 0
        if allRights < value ∨ digits.length ≠ rest.length then none
        else some [⟨allRights, op, .bits value, allRights⟩]
      else
        let (value, after) := readModeValue rest
        let mentioned := if who = 0 then value.written else who &&& value.written
        (readModeOperators who fuel after).map (⟨who, op, value, mentioned⟩ :: ·)
    else none

/-- The changes that a text without commas writes. -/
def readModeClause (t : Text) : Option (List ModeChange) :=
  let letters := t.takeWhile fun c => (whoBits? c).isSome
  let rest := t.drop letters.length
  if rest.isEmpty then none
  else readModeOperators (letters.foldl (fun n c => n ||| (whoBits? c).getD 0) 0) (rest.length + 1) rest

def readMode? (t : Text) : Option (List ModeChange) :=
  if !t.isEmpty && t.all (fun c => '0' ≤ c && c ≤ '7') then
    let value := t.foldl (fun n c => n * 8 + (c.toNat - 48)) 0
    let mentioned := if t.length < 5 then (value &&& 0o7000) ||| 0o777 else allRights
    if allRights < value then none else some [⟨allRights, '=', .bits value, mentioned⟩]
  else ((splitAt ',' t).mapM readModeClause).map List.flatten

def withoutBits (n bits : Nat) : Nat :=
  n ^^^ (n &&& bits)

/-- The rights that a change gives or takes, given the present ones. -/
def ModeValue.resolve (isDir : Bool) (old : Nat) : ModeValue → Nat
  | bits value => value
  | bitsAndRun value => if old &&& 0o111 ≠ 0 ∨ isDir then value ||| 0o111 else value
  | copied who =>
    let has (all : Nat) : Nat := if old &&& who &&& all ≠ 0 then all else 0
    has 0o444 ||| has 0o222 ||| has 0o111

/-- Rights after one change, where `known` are the rights that it may copy.  If it is not said whose rights
are meant, those of the mask stay.  Special rights of a directory stay unless they are mentioned. -/
def ModeChange.apply (mask : Nat) (isDir : Bool) (known old : Nat) (change : ModeChange) : Nat :=
  let omitted := if isDir then withoutBits 0o6000 change.mentioned else 0
  let affected := if change.who = 0 then withoutBits allRights mask else change.who
  let value := withoutBits (change.value.resolve isDir known &&& affected) omitted
  match change.op with
  | '+' => old ||| value
  | '-' => withoutBits old value
  | _ =>
    let preserved := (if change.who = 0 then 0 else withoutBits allRights change.who) ||| omitted
    (old &&& preserved) ||| value

def applyMode (mask : Nat) (isDir : Bool) (changes : List ModeChange) (old : Nat) : Nat :=
  changes.foldl (fun now change => change.apply mask isDir now now) old

/-- Three rights as letters; `special` stands in for the last one. -/
def rightLetters (bits : Nat) (special : Option (Char × Char)) : Text :=
  let run := bits &&& 1 ≠ 0
  [if bits &&& 4 ≠ 0 then 'r' else '-', if bits &&& 2 ≠ 0 then 'w' else '-',
    match special with
    | some (running, idle) => if run then running else idle
    | none => if run then 'x' else '-']

def modeLetters (mode : Nat) : Text :=
  rightLetters (mode / 64) (if mode &&& 0o4000 ≠ 0 then some ('s', 'S') else none) ++
  rightLetters (mode / 8) (if mode &&& 0o2000 ≠ 0 then some ('s', 'S') else none) ++
  rightLetters mode (if mode &&& 0o1000 ≠ 0 then some ('t', 'T') else none)

def octal (width n : Nat) : Text :=
  let digits := Nat.toDigits 8 n
  List.replicate (width - digits.length) '0' ++ digits

end Amalgam.Script
