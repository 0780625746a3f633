import Amalgam.Script.Arithmetic

/-!
# Tests

Conditions on files, texts and numbers, joined by `!`, `-a`, `-o` and parentheses.  A word that looks like an
operator counts as a text where an operand has to stand.
-/

namespace Amalgam.Script

/-- The kinds of operators in conditions. -/
inductive TestOperator where
  | unary
  | binary
  | bang
  | conjunction
  | disjunction
  | openParen
  | closeParen
  deriving DecidableEq, Repr

def testOperator? (t : Text) : Option TestOperator :=
  let word := String.ofList t
  if ["-r", "-w", "-x", "-e", "-f", "-d", "-c", "-b", "-p", "-u", "-g", "-k", "-s", "-t", "-z", "-n", "-h",
      "-O", "-G", "-L", "-S"].contains word then some .unary
  else if ["=", "!=", "<", ">", "-eq", "-ne", "-gt", "-ge", "-lt", "-le", "-nt", "-ot", "-ef"].contains
      word then some .binary
  else
    match word with
    | "!" => some .bang
    | "-a" => some .conjunction
    | "-o" => some .disjunction
    | "(" => some .openParen
    | ")" => some .closeParen
    | _ => none

/-- A word in its place. -/
inductive TestToken where
  | none
  | operand
  | operator (kind : TestOperator)
  deriving DecidableEq, Repr

def isOperand (args : List Text) (i : Nat) : Bool :=
  match args[i + 1]?, args[i + 2]? with
  | .none, _ => true
  | some _, .none => false
  | some next, some _ => testOperator? next == some .binary

def testToken (args : List Text) (i : Nat) : TestToken :=
  match args[i]? with
  | .none => .none
  | some t =>
    match testOperator? t with
    | some kind =>
      if kind = .unary ∧ isOperand args i then .operand
      else if kind = .openParen ∧ args.length = i + 1 then .operand
      else .operator kind
    | .none => .operand

/-! ### Single conditions -/

def hasRights (tree : FileTree) (p : Path) (bits : Nat) : Bool :=
  match tree.locate p with
  | .ok loc => tree.modeAt loc &&& bits != 0
  | .error _ => false

def fileTest (tree : FileTree) (op : String) (path : Text) : Bool :=
  let p := toPath path
  let entry := tree.entryAt? p
  match op with
  | "-f" => tree.isFile p
  | "-d" => tree.isDir p
  | "-h" | "-L" =>
    match tree.spot .stay p with
    | .ok (.found loc) => match tree.entry? loc with
      | some (.link _) => true
      | _ => false
    | _ => false
  | "-s" =>
    match entry with
    | some (.file content _) => !content.isEmpty
    | some .sink | some .full | some .endless | some (.stream _) | .none => false
    | some _ => true
  | "-x" =>
    match entry with
    | some (.file _ executable) => executable
    | some .sink | some .full | some .endless | some (.stream _) | .none => false
    | some _ => true
  | "-c" => entry == some .sink || entry == some .full || entry == some .endless
  | "-p" =>
    match entry with
    | some (.stream _) => true
    | _ => false
  | "-u" => hasRights tree p 0o4000
  | "-g" => hasRights tree p 0o2000
  | "-k" => hasRights tree p 0o1000
  | "-b" | "-S" => false
  | _ => entry.isSome

def unaryTest (op : Text) (t : Text) : Run Bool := do
  match String.ofList op with
  | "-z" => return t.isEmpty
  | "-n" => return !t.isEmpty
  | "-t" =>
    let _ ← numberOrAbort false t
    return false
  | word => return fileTest (← get).tree word t

def samePlace (tree : FileTree) (a b : Text) : Bool :=
  match tree.locate (toPath a), tree.locate (toPath b) with
  | .ok x, .ok y => (tree.twins x).contains y
  | _, _ => false

def changeTime (tree : FileTree) (loc : Location) : Int :=
  (tree.traitsAt loc).changed.getD startTime

/-- Are there things at two paths, and was the first changed later than the second? -/
def isNewer (tree : FileTree) (a b : Text) : Bool :=
  match tree.locate (toPath a), tree.locate (toPath b) with
  | .ok x, .ok y => changeTime tree y < changeTime tree x
  | _, _ => false

def binaryTest (a op b : Text) : Run Bool := do
  let tree := (← get).tree
  let compare (test : Int → Int → Bool) : Run Bool := do
    let x ← numberOrAbort false a
    let y ← numberOrAbort false b
    return test x y
  match String.ofList op with
  | "=" => return a == b
  | "!=" => return a != b
  | "<" => return textLe a b && a != b
  | ">" => return textLe b a && a != b
  | "-eq" => compare fun x y => x == y
  | "-ne" => compare fun x y => x != y
  | "-gt" => compare fun x y => y < x
  | "-ge" => compare fun x y => y ≤ x
  | "-lt" => compare fun x y => x < y
  | "-le" => compare fun x y => x ≤ y
  | "-nt" => return isNewer tree a b
  | "-ot" => return isNewer tree b a
  | _ => return samePlace tree a b

/-! ### Joined conditions -/

/-- Stops because of what is wrong with a condition. -/
def testFault {α : Type} (op : Text) (text : String) : Run α :=
  abort (if op.isEmpty then text.toList else op ++ ": ".toList ++ text.toList)

mutual

/-- Conditions joined by `-o`, from a place on; gives the place of the last word as well. -/
def orTest (args : List Text) : Nat → Nat → Run (Bool × Nat)
  | 0, i => return (false, i)
  | fuel + 1, i => do
    let (a, i) ← andTest args fuel i
    if testToken args (i + 1) = .operator .disjunction then
      let (b, i) ← orTest args fuel (i + 2)
      return (a || b, i)
    return (a, i)

/-- Conditions joined by `-a`. -/
def andTest (args : List Text) : Nat → Nat → Run (Bool × Nat)
  | 0, i => return (false, i)
  | fuel + 1, i => do
    let (a, i) ← notTest args fuel i
    if testToken args (i + 1) = .operator .conjunction then
      let (b, i) ← andTest args fuel (i + 2)
      return (a && b, i)
    return (a, i)

def notTest (args : List Text) : Nat → Nat → Run (Bool × Nat)
  | 0, i => return (false, i)
  | fuel + 1, i => do
    if testToken args i = .operator .bang then
      let next := if testToken args (i + 1) = .none then i else i + 1
      let (a, i) ← if next = i then pure (false, i) else notTest args fuel next
      return (!a, i)
    singleTest args fuel i

/-- A condition that stands alone or between parentheses. -/
def singleTest (args : List Text) : Nat → Nat → Run (Bool × Nat)
  | 0, i => return (false, i)
  | fuel + 1, i => do
    match args[i]?, testToken args i with
    | .none, _ => return (false, i)
    | some _, .operator .openParen =>
      if testToken args (i + 1) = .operator .closeParen then return (false, i + 1)
      let (a, i) ← orTest args fuel (i + 1)
      if testToken args (i + 1) = .operator .closeParen then return (a, i + 1)
      testFault [] "closing paren expected"
    | some op, .operator .unary =>
      match args[i + 1]? with
      | some t => return (← unaryTest op t, i + 1)
      | .none => testFault op "argument expected"
    | some a, _ =>
      if testToken args (i + 1) = .operator .binary then
        match args[i + 1]?, args[i + 2]? with
        | some op, some b => return (← binaryTest a op b, i + 2)
        | some op, .none => testFault op "argument expected"
        | .none, _ => return (!a.isEmpty, i)
      return (!a.isEmpty, i)

end

/-- The condition from the first word on; a word that is left over is a fault. -/
def wholeTest (args : List Text) : Run Bool := do
  let (result, i) ← orTest args (6 * args.length + 6) 0
  match args[i]?, args[i + 1]? with
  | some t, some _ => testFault t "unexpected operator"
  | _, _ => return result

/-- The condition that arguments write.  With few arguments, their number decides what is an operator. -/
def testArguments : Nat → List Text → Run Bool
  | 0, _ => return false
  | fuel + 1, args => do
    match args with
    | [] => return false
    | [a, op, b] =>
      if testOperator? op = some .binary then binaryTest a op b
      else if a = ['('] ∧ b = [')'] then wholeTest [op]
      else if a = ['!'] then return !(← testArguments fuel [op, b])
      else wholeTest args
    | [a, b, c, d] =>
      if a = ['('] ∧ d = [')'] then wholeTest [b, c]
      else if a = ['!'] then return !(← testArguments fuel [b, c, d])
      else wholeTest args
    | _ => wholeTest args

end Amalgam.Script
