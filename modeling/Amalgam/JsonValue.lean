import Amalgam.Digest

/-!
# JSON

JSON values, written with one item to a line and two blanks for each level.  Empty lists and records stand
on one line.

## Main definitions

* `JsonValue` — the values a report holds
* `JsonValue.quote` — a text as a JSON string
* `JsonValue.pretty` — a value as text
-/

namespace Amalgam

/-- The values a report holds. -/
inductive JsonValue where
  | null
  | number (n : Nat)
  | text (s : String)
  | list (items : List JsonValue)
  | record (fields : List (String × JsonValue))

namespace JsonValue

/-- A character inside a JSON string: quotes, backslashes and control characters are escaped. -/
def escape (c : Char) : List Char :=
  if c = '"' then ['\\', '"']
  else if c = '\\' then ['\\', '\\']
  else if c = '\x08' then ['\\', 'b']
  else if c = '\x0c' then ['\\', 'f']
  else if c = '\n' then ['\\', 'n']
  else if c = '\r' then ['\\', 'r']
  else if c = '\t' then ['\\', 't']
  else if c.toNat < 0x20 then
    ['\\', 'u', '0', '0', hexDigit (c.toNat / 16), hexDigit (c.toNat % 16)]
  else [c]

/-- A text as a JSON string. -/
def quote (s : String) : String :=
  String.ofList ('"' :: s.toList.flatMap escape ++ ['"'])

/-- A new line, indented by `level` levels. -/
def newLine (level : Nat) : String :=
  String.ofList ('\n' :: List.replicate (2 * level) ' ')

mutual

/-- A value as text, inside `level` levels. -/
def prettyAt (level : Nat) : JsonValue → String
  | null => "null"
  | number n => Nat.repr n
  | text s => quote s
  | list [] => "[]"
  | list (item :: items) =>
    "[" ++ newLine (level + 1) ++ prettyAt (level + 1) item ++ prettyItems (level + 1) items ++
      newLine level ++ "]"
  | record [] => "\x7b\x7d"
  | record (field :: fields) =>
    "\x7b" ++ newLine (level + 1) ++ prettyField (level + 1) field ++
      prettyFields (level + 1) fields ++ newLine level ++ "\x7d"

/-- The items after the first. -/
def prettyItems (level : Nat) : List JsonValue → String
  | [] => ""
  | item :: items => "," ++ newLine level ++ prettyAt level item ++ prettyItems level items

/-- A field of a record. -/
def prettyField (level : Nat) : String × JsonValue → String
  | (name, value) => quote name ++ ": " ++ prettyAt level value

/-- The fields after the first. -/
def prettyFields (level : Nat) : List (String × JsonValue) → String
  | [] => ""
  | field :: fields => "," ++ newLine level ++ prettyField level field ++ prettyFields level fields

end

/-- A value as text. -/
def pretty (v : JsonValue) : String :=
  prettyAt 0 v

end JsonValue

end Amalgam
