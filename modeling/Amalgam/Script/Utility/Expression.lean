import Amalgam.Script.Utility
import Amalgam.Script.Utility.Regex.Reader

/-!
# Expressions as arguments

The program whose arguments are an expression, one operand or operator each.
-/

namespace Amalgam.Script

abbrev Reading := Except Text (Text × List Text)

/-- The number that a text of decimal digits writes, which may have a minus sign. -/
def intOf? : Text → Option Int
  | '-' :: digits => (natOf? digits).map fun n => -(n : Int)
  | digits => (natOf? digits).map Int.ofNat

def isTrueValue (t : Text) : Bool :=
  !t.isEmpty && intOf? t != some 0

def truthText (b : Bool) : Text :=
  if b then ['1'] else ['0']

def calculate (op : Char) (a b : Text) : Except Text Text :=
  match intOf? a, intOf? b with
  | some a, some b =>
    match op with
    | '+' => .ok (ofInt (a + b))
    | '-' => .ok (ofInt (a - b))
    | '*' => .ok (ofInt (a * b))
    | _ =>
      if b = 0 then .error "division by zero".toList
      else if op = '/' then .ok (ofInt (a.tdiv b)) else .ok (ofInt (a.tmod b))
  | _, _ => .error "non-integer argument".toList

def compareValues (op : String) (a b : Text) : Bool :=
  let le (a b : Text) : Bool := match intOf? a, intOf? b with
    | some a, some b => a ≤ b
    | _, _ => textLe a b
  match op with
  | "<" => !le b a
  | "<=" => le a b
  | "=" | "==" => le a b && le b a
  | "!=" => !(le a b && le b a)
  | ">=" => le b a
  | _ => !le a b

/-- What a pattern matches at the start of a text: the first group, or the number of characters. -/
def matchStart (t pattern : Text) : Except Text Text :=
  match readStyled operandStyle pattern with
  | .error fault => .error fault.text.toList
  | .ok regex =>
    let grouped := 0 < regex.groupCount
    let f : Finder := { regex, multiline := true }
    match f.matchAt? t.toArray 0 with
    | some m => .ok (if grouped then (m.groups.lookup 1).getD [] else ofNat m.stop)
    | none => .ok (if grouped then [] else ['0'])

def valueOperators : Nat → List String
  | 0 => ["|"]
  | 1 => ["&"]
  | 2 => ["<", "<=", "=", "==", "!=", ">=", ">"]
  | 3 => ["+", "-"]
  | 4 => ["*", "/", "%"]
  | _ => [":"]

def applyOperator (op : String) (a b : Text) : Except Text Text :=
  match op with
  | "|" => .ok (if isTrueValue a then a else if isTrueValue b then b else ['0'])
  | "&" => .ok (if isTrueValue a && isTrueValue b then a else ['0'])
  | ":" => matchStart a b
  | "+" => calculate '+' a b
  | "-" => calculate '-' a b
  | "*" => calculate '*' a b
  | "/" => calculate '/' a b
  | "%" => calculate '%' a b
  | _ => .ok (truthText (compareValues op a b))

def rightCounts (op : String) (a : Text) : Bool :=
  match op with
  | "|" => !isTrueValue a
  | "&" => isTrueValue a
  | _ => true

def firstPlace (t set : Text) : Nat :=
  match t.findIdx? set.contains with
  | some i => i + 1
  | none => 0

def partFrom (t start count : Text) : Text :=
  match intOf? start, intOf? count with
  | some i, some n => if 0 < i ∧ 0 < n then (t.drop (i.toNat - 1)).take n.toNat else []
  | _, _ => []

mutual

/-- An expression whose operators have at least a rank.  `live` says that its value counts, and `last` is the
argument before the rest. -/
def valueFrom : Nat → Bool → Nat → Text → List Text → Reading
  | 0, _, _, _, _ => .error "syntax error".toList
  | fuel + 1, live, rank, last, args => do
    if 5 < rank then callFrom fuel live last args
    else
      let (a, rest) ← valueFrom fuel live (rank + 1) last args
      moreFrom fuel live rank a rest

def moreFrom : Nat → Bool → Nat → Text → List Text → Reading
  | 0, _, _, a, rest => .ok (a, rest)
  | fuel + 1, live, rank, a, rest =>
    match rest with
    | op :: later => do
      let sign := String.ofList op
      if (valueOperators rank).contains sign then
        let (b, rest) ← valueFrom fuel (live && rightCounts sign a) (rank + 1) op later
        let a ← if live then applyOperator sign a b else .ok a
        moreFrom fuel live rank a rest
      else .ok (a, rest)
    | [] => .ok (a, [])

def callFrom : Nat → Bool → Text → List Text → Reading
  | 0, _, _, _ => .error "syntax error".toList
  | fuel + 1, live, last, args => do
    match args with
    | [] => operandFrom fuel live last args
    | word :: rest =>
      match String.ofList word with
      | "+" =>
        match rest with
        | next :: rest => .ok (next, rest)
        | [] => operandFrom fuel live word []
      | "length" =>
        let (t, rest) ← callFrom fuel live word rest
        .ok (ofNat t.length, rest)
      | "match" =>
        let (t, rest) ← callFrom fuel live word rest
        let (pattern, rest) ← callFrom fuel live (args.getD (args.length - rest.length - 1) []) rest
        let a ← if live then matchStart t pattern else .ok t
        .ok (a, rest)
      | "index" =>
        let (t, rest) ← callFrom fuel live word rest
        let (set, rest) ← callFrom fuel live (args.getD (args.length - rest.length - 1) []) rest
        .ok (ofNat (firstPlace t set), rest)
      | "substr" =>
        let (t, rest) ← callFrom fuel live word rest
        let (start, rest) ← callFrom fuel live (args.getD (args.length - rest.length - 1) []) rest
        let (count, rest) ← callFrom fuel live (args.getD (args.length - rest.length - 1) []) rest
        .ok (partFrom t start count, rest)
      | _ => operandFrom fuel live last args

def operandFrom : Nat → Bool → Text → List Text → Reading
  | 0, _, _, _ => .error "syntax error".toList
  | fuel + 1, live, last, args =>
    match args with
    | [] => .error ("syntax error: missing argument after ".toList ++ cited last)
    | ['('] :: rest => do
      let (a, rest) ← valueFrom fuel live 0 ['('] rest
      match rest with
      | [')'] :: rest => .ok (a, rest)
      | other :: _ => .error ("syntax error: expecting ')' instead of ".toList ++ cited other)
      | [] => .error ("syntax error: expecting ')' after ".toList ++ cited (args.getLast?.getD []))
    | [')'] :: _ => .error "syntax error: unexpected ')'".toList
    | word :: rest => .ok (word, rest)

end

def exprTool : Utility := fun _ name args => do
  let args := match args with
    | ['-', '-'] :: rest => rest
    | _ => args
  if args.isEmpty then return ← misused name 2 "missing operand".toList
  match valueFrom (8 * args.length + 16) true 0 [] args with
  | .error text => toolFails name 2 text
  | .ok (value, rest) =>
    match rest with
    | extra :: _ => toolFails name 2 ("syntax error: unexpected argument ".toList ++ cited extra)
    | [] =>
      say (asLine value)
      return if isTrueValue value then 0 else 1

end Amalgam.Script
