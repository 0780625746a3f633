import Amalgam.Script.Test
import Amalgam.Script.Utility

/-!
# Conditions as programs

The programs that test a condition and tell by their status whether it holds.  The number of arguments
decides what is an operator, as far as there are few of them.
-/

namespace Amalgam.Script

abbrev Verdict := Except Text

def pairOperators : List String :=
  ["=", "==", "!=", "-eq", "-ne", "-lt", "-le", "-gt", "-ge", "-nt", "-ot", "-ef"]

def isPairOperator (t : Text) : Bool :=
  pairOperators.contains (String.ofList t)

def conditionNumber (t : Text) : Verdict Int :=
  let body := (t.dropWhile isSpace).reverse.dropWhile isSpace |>.reverse
  let (sign, digits) : Int × Text := match body with
    | '-' :: digits => (-1, digits)
    | '+' :: digits => (1, digits)
    | _ => (1, body)
  if digits.isEmpty || !digits.all Char.isDigit then .error ("invalid integer ".toList ++ cited t)
  else .ok (sign * (digitsValue digits : Nat))

def isLater (tree : FileTree) (a b : Text) : Bool :=
  match tree.locate (toPath a), tree.locate (toPath b) with
  | .ok x, .ok y => changeTime tree y < changeTime tree x
  | .ok _, .error _ => true
  | _, _ => false

/-- A condition on two operands, which are numbers or the lengths of texts for some operators. -/
def pairCondition (tree : FileTree) (a op b : Text) : Verdict Bool :=
  let compare (test : Int → Int → Bool) : Verdict Bool := do
    return test (← conditionNumber a) (← conditionNumber b)
  match String.ofList op with
  | "=" | "==" => .ok (a == b)
  | "!=" => .ok (a != b)
  | "-eq" => compare fun x y => x == y
  | "-ne" => compare fun x y => x != y
  | "-gt" => compare fun x y => y < x
  | "-ge" => compare fun x y => y ≤ x
  | "-lt" => compare fun x y => x < y
  | "-le" => compare fun x y => x ≤ y
  | "-nt" => .ok (isLater tree a b)
  | "-ot" => .ok (isLater tree b a)
  | _ => .ok (samePlace tree a b)

def unaryCondition (tree : FileTree) (op t : Text) : Verdict Bool :=
  match String.ofList op with
  | "-z" => .ok t.isEmpty
  | "-n" => .ok !t.isEmpty
  | "-t" => (conditionNumber t).map fun _ => false
  | "-N" => .ok false
  | word =>
    if ["-b", "-c", "-d", "-e", "-f", "-g", "-h", "-k", "-p", "-r", "-s", "-u", "-w", "-x", "-G", "-L",
        "-O", "-S"].contains word then .ok (fileTest tree word t)
    else .error (cited op ++ ": unary operator expected".toList)

def isUnaryForm (t : Text) : Bool :=
  match t with
  | ['-', _] => true
  | _ => false

structure ConditionSetting where
  tree : FileTree
  last : Text
  closed : Bool

namespace ConditionSetting

def beyond (s : ConditionSetting) : Text :=
  "missing argument after ".toList ++ cited s.last

/-- A condition with an operator in front, and the arguments after it. -/
def unaryAt (s : ConditionSetting) (op : Text) (rest : List Text) : Verdict (Bool × List Text) := do
  let known := (unaryCondition s.tree op []).toOption.isSome || op = ['-', 't']
  match rest with
  | t :: rest => return (← unaryCondition s.tree op t, rest)
  | [] => if known then throw s.beyond else throw (cited op ++ ": unary operator expected".toList)

def oneArgument (s : ConditionSetting) : List Text → Verdict (Bool × List Text)
  | [] => .error s.beyond
  | a :: rest => .ok (!a.isEmpty, rest)

def twoArguments (s : ConditionSetting) : List Text → Verdict (Bool × List Text)
  | [] => .error s.beyond
  | a :: rest =>
    if a = ['!'] then (s.oneArgument rest).map fun (value, rest) => (!value, rest)
    else if isUnaryForm a then s.unaryAt a rest
    else .error s.beyond

mutual

/-- Conditions joined by `-o`, and the arguments after them; `fuel` bounds their number. -/
def anyOf (s : ConditionSetting) : Nat → List Text → Verdict (Bool × List Text)
  | 0, _ => .ok (false, [])
  | fuel + 1, args => do
    let (a, rest) ← s.allOf fuel args
    match rest with
    | ['-', 'o'] :: rest =>
      let (b, rest) ← s.anyOf fuel rest
      return (a || b, rest)
    | _ => return (a, rest)

/-- Conditions joined by `-a`. -/
def allOf (s : ConditionSetting) : Nat → List Text → Verdict (Bool × List Text)
  | 0, _ => .ok (false, [])
  | fuel + 1, args => do
    let (a, rest) ← s.termOf fuel args
    match rest with
    | ['-', 'a'] :: rest =>
      let (b, rest) ← s.allOf fuel rest
      return (a && b, rest)
    | _ => return (a, rest)

/-- A single condition, which may be negated or stand between parentheses. -/
def termOf (s : ConditionSetting) : Nat → List Text → Verdict (Bool × List Text)
  | 0, _ => .ok (false, [])
  | fuel + 1, args => do
    match args with
    | [] => throw s.beyond
    | ['!'] :: rest =>
      let (value, rest) ← s.termOf fuel rest
      return (!value, rest)
    | ['('] :: rest =>
      if rest.isEmpty then throw s.beyond
      let inside := (rest.drop 1).takeWhile (· ≠ [')'])
      let count := if 4 ≤ inside.length + 1 ∧ rest[4]? ≠ some [')'] then rest.length else inside.length + 1
      let (value, after) ← s.groupOf fuel count rest
      match after with
      | [')'] :: after => return (value, after)
      | [] => throw (if s.closed then "')' expected, found ']'".toList else "')' expected".toList)
      | found :: _ => throw ("')' expected, found ".toList ++ cited found)
    | a :: rest =>
      match a, rest with
      | ['-', 'l'], t :: op :: b :: later =>
        if isPairOperator op then return (← pairCondition s.tree (ofNat t.length) op b, later)
      | _, _ => pure ()
      match rest with
      | op :: b :: later =>
        if isPairOperator op then
          match b, later with
          | ['-', 'l'], t :: later => return (← pairCondition s.tree a op (ofNat t.length), later)
          | _, _ => return (← pairCondition s.tree a op b, later)
      | _ => pure ()
      if isUnaryForm a then s.unaryAt a rest else return (!a.isEmpty, rest)

/-- The condition that a number of arguments writes, and the arguments after it. -/
def groupOf (s : ConditionSetting) : Nat → Nat → List Text → Verdict (Bool × List Text)
  | 0, _, _ => .ok (false, [])
  | fuel + 1, count, args => do
    match count, args with
    | 1, _ => s.oneArgument args
    | 2, _ => s.twoArguments args
    | 3, a :: op :: b :: rest =>
      if isPairOperator op then return (← pairCondition s.tree a op b, rest)
      else if a = ['!'] then
        let (value, rest) ← s.twoArguments (op :: b :: rest)
        return (!value, rest)
      else if a = ['('] ∧ b = [')'] then return (!op.isEmpty, rest)
      else if op = ['-', 'a'] ∨ op = ['-', 'o'] then s.anyOf fuel args
      else throw (cited op ++ ": binary operator expected".toList)
    | 4, a :: b :: c :: d :: rest =>
      if a = ['!'] then
        let (value, rest) ← s.groupOf fuel 3 (b :: c :: d :: rest)
        return (!value, rest)
      else if a = ['('] ∧ d = [')'] then
        let (value, rest) ← s.twoArguments (b :: c :: d :: rest)
        return (value, rest.drop 1)
      else s.anyOf fuel args
    | _, _ => s.anyOf fuel args

end

end ConditionSetting

def conditionOf (tree : FileTree) (closed : Bool) (args : List Text) : Verdict Bool := do
  match args.getLast? with
  | none => return false
  | some last =>
    let s : ConditionSetting := { tree, last, closed }
    let (value, rest) ← s.groupOf (8 * args.length + 8) args.length args
    match rest with
    | [] => return value
    | extra :: _ => throw ("extra argument ".toList ++ cited extra)

/-- Tests a condition; if `closed`, the last argument has to be a closing bracket. -/
def testTool (closed : Bool) : Utility := fun _ name args => do
  if closed && args.getLast? ≠ some [']'] then return ← toolFails name 2 "missing ']'".toList
  match conditionOf (← get).tree closed (if closed then args.dropLast else args) with
  | .ok true => return 0
  | .ok false => return 1
  | .error text => toolFails name 2 text

end Amalgam.Script
