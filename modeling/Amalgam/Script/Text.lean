import Amalgam.Path
import Amalgam.Text.IdentChar
import Amalgam.Text.Lines

/-!
# Texts of scripts

A shell works on bytes: names, arguments and output need not be well-formed in any encoding.  Its texts are
lists of characters all the same, with **one character for each byte**, so that they can be written and
compared like other texts; `ofBytes` and `toBytes` go back and forth.
-/

namespace Amalgam.Script

abbrev Text := List Char

def ofBytes (bytes : Bytes) : Text :=
  bytes.map fun b => Char.ofNat b.toNat

def toBytes (t : Text) : Bytes :=
  t.map fun c => UInt8.ofNat c.toNat

def ofString (s : String) : Text :=
  ofBytes (encodeUtf8 s.toList)

def toName (t : Text) : String :=
  String.ofList (decodeLenient (toBytes t))

def toPath (t : Text) : Path :=
  ⟨toName t⟩

def ofNat (n : Nat) : Text :=
  (Nat.repr n).toList

/-- A number in decimal digits, with a sign if it is negative. -/
def ofInt : Int → Text
  | .ofNat n => ofNat n
  | .negSucc n => '-' :: ofNat (n + 1)

def digitsValue (t : Text) : Nat :=
  t.foldl (fun n c => n * 10 + (c.toNat - 48)) 0

/-- The number that a text of decimal digits writes. -/
def natOf? (t : Text) : Option Nat :=
  if !t.isEmpty && t.all Char.isDigit then some (digitsValue t) else none

def isName (t : Text) : Bool :=
  match t with
  | c :: rest => isNameStart c && rest.all isNameChar
  | [] => false

def isGap (c : Char) : Bool :=
  c == ' ' || c == '\t'

/-- A blank, a line break or another character that numbers may start with. -/
def isSpace (c : Char) : Bool :=
  c == ' ' || (9 ≤ c.toNat && c.toNat ≤ 13)

def asLine (t : Text) : Text :=
  t ++ ['\n']

def unwords (ts : List Text) : Text :=
  joinWith ' ' ts

/-- With a value for a name, in place of the one that it had; a new name comes last. -/
def putNamed {α : Type} (name : Text) (value : α) : List (Text × α) → List (Text × α)
  | [] => [(name, value)]
  | (other, old) :: rest =>
    if other = name then (name, value) :: rest else (other, old) :: putNamed name value rest

/-- A number that depends on the characters of a name, by which names are shown in groups. -/
def nameRank (groups : Nat) (name : Text) : Nat :=
  (16 * ((name.head?.map Char.toNat).getD 0) + name.foldl (fun n c => n + c.toNat) 0) % 0x8000 % groups

end Amalgam.Script
