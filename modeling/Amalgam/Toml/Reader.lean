import Amalgam.Toml
import Amalgam.Toml.Quoted
import Amalgam.Toml.Scalar

/-!
# Reading TOML

A document is read line by line: blank lines and comments, headers, and keys with values.  Headers of
repeated tables are not read, because no setting has such a value: meeting one is an error, as the type of
the value would be.

Values nest, so their readers take a bound on the number of values and keys, for which the length of the
text is always enough.  Lists and tables nest less than `nestingLimit` deep, and a dotted key has fewer
parts than that.

## Main definitions

* `nestingLimit` — how deep values nest
* `readKey` — a dotted key
* `readValue`, `readItems`, `readPairs` — a value, the rest of a list, the rest of an inline table
* `endLine?` — the end of a line
* `readLines`, `parse?` — the lines of a document, and its fields
-/

namespace Amalgam.Toml

/-- Without the blanks at the start. -/
def skipBlanks (cs : List Char) : List Char :=
  cs.dropWhile isTomlBlank

/-- Without blanks, line breaks and comments at the start; `comment` says that a comment is being
read. -/
def skipFill (comment : Bool) : List Char → Option (List Char)
  | [] => some []
  | '\r' :: '\n' :: rest => skipFill false rest
  | c :: rest =>
    if c = '\n' then skipFill false rest
    else if comment then if isPlainChar c then skipFill true rest else none
    else if isTomlBlank c then skipFill false rest
    else if c = '#' then skipFill true rest
    else some (c :: rest)

/-- A character of a key without quotes. -/
def isKeyChar (c : Char) : Bool :=
  c.isAlphanum || c == '_' || c == '-'

/-- A key without dots. -/
def readSimpleKey (cs : List Char) : Option (String × List Char) :=
  match cs with
  | '"' :: rest => (readBasic rest).map fun (key, rest) => (String.ofList key, rest)
  | '\'' :: rest => (readLiteral rest).map fun (key, rest) => (String.ofList key, rest)
  | _ =>
    match cs.takeWhile isKeyChar with
    | [] => none
    | key => some (String.ofList key, cs.dropWhile isKeyChar)

/-- How deep lists and tables nest, and how many parts a dotted key has, stays below this number. -/
def nestingLimit : Nat := 80

/-- A dotted key of at most `parts` parts, with the blanks around them. -/
def readKeyParts : Nat → List Char → Option (List String × List Char)
  | 0, _ => none
  | parts + 1, cs => do
    let (key, rest) ← readSimpleKey (skipBlanks cs)
    match skipBlanks rest with
    | '.' :: rest =>
      let (keys, rest) ← readKeyParts parts rest
      return (key :: keys, rest)
    | rest => return ([key], rest)

/-- A dotted key. -/
def readKey (cs : List Char) : Option (List String × List Char) :=
  readKeyParts (nestingLimit - 1) cs

/-- The sign between a key and its value, with the blanks around it. -/
def readEquals (cs : List Char) : Option (List Char) :=
  match skipBlanks cs with
  | '=' :: rest => some (skipBlanks rest)
  | _ => none

mutual

/-- A value; lists and tables may nest `room` deep. -/
def readValue : Nat → Nat → List Char → Option (Value × List Char)
  | 0, _, _ => none
  | fuel + 1, room, cs =>
    match cs, room with
    | '[' :: _, 0 => none
    | '{' :: _, 0 => none
    | '[' :: rest, room + 1 =>
      (readItems fuel room rest).map fun (items, rest) => (.list items, rest)
    | '{' :: rest, room + 1 =>
      match skipBlanks rest with
      | '}' :: rest => some (.table .inline [], rest)
      | rest => do
        let (pairs, rest) ← readPairs fuel room rest
        let fields ← inlineFields pairs
        return (.table .inline fields, rest)
    | _, _ =>
      match readQuoted cs with
      | some (content, rest) => some (.text (String.ofList content), rest)
      | none => (readScalar cs).map fun (written, rest) => (.scalar (String.ofList written), rest)

/-- The items of a list up to its closing bracket; a comma may follow the last one. -/
def readItems : Nat → Nat → List Char → Option (List Value × List Char)
  | 0, _, _ => none
  | fuel + 1, room, cs => do
    match ← skipFill false cs with
    | ']' :: rest => return ([], rest)
    | cs =>
      let (item, rest) ← readValue fuel room cs
      match ← skipFill false rest with
      | ',' :: rest =>
        let (items, rest) ← readItems fuel room rest
        return (item :: items, rest)
      | ']' :: rest => return ([item], rest)
      | _ => none

/-- The keys and values of an inline table up to its closing brace. -/
def readPairs : Nat → Nat → List Char → Option (List (List String × Value) × List Char)
  | 0, _, _ => none
  | fuel + 1, room, cs => do
    let (key, rest) ← readKey cs
    let rest ← readEquals rest
    let (value, rest) ← readValue fuel room rest
    match skipBlanks rest with
    | ',' :: rest =>
      let (pairs, rest) ← readPairs fuel room rest
      return ((key, value) :: pairs, rest)
    | '}' :: rest => return ([(key, value)], rest)
    | _ => none

end

/-- What follows the end of a line, which may hold blanks and a comment. -/
def endLine? (cs : List Char) : Option (List Char) :=
  let after := match skipBlanks cs with
    | '#' :: rest => rest.dropWhile isPlainChar
    | rest => rest
  match after with
  | [] => some []
  | '\n' :: rest => some rest
  | '\r' :: '\n' :: rest => some rest
  | _ => none

/-- A line of a document, and what follows it. -/
def readLine (fuel : Nat) (cs : List Char) : Option (Option Item × List Char) := do
  match skipBlanks cs with
  | '[' :: rest =>
    let (path, rest) ← readKey rest
    match rest with
    | ']' :: rest => return (some (.header path), ← endLine? rest)
    | _ => none
  | rest =>
    match endLine? rest with
    | some after => return (none, after)
    | none =>
      let (key, rest) ← readKey rest
      let rest ← readEquals rest
      let (value, rest) ← readValue fuel (nestingLimit - 1) rest
      return (some (.field key value), ← endLine? rest)

/-- The lines of a document that say something. -/
def readLines (fuel : Nat) : Nat → List Char → Option (List Item)
  | _, [] => some []
  | 0, _ => none
  | count + 1, cs => do
    let (item, rest) ← readLine fuel cs
    let items ← readLines fuel count rest
    return item.toList ++ items

/-- The fields of a document.  A byte order mark at its start says nothing. -/
def parse? (source : List Char) : Option Fields :=
  let body := match source with
    | c :: rest => if c = Char.ofNat 0xFEFF then rest else source
    | [] => []
  (readLines (body.length + 1) (body.length + 1) body).bind document

end Amalgam.Toml
