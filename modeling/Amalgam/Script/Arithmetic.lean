import Amalgam.Script.Shell

/-!
# Arithmetic

Expressions over whole numbers of 64 bits with a sign, which wrap around.  A name stands for the number that
its variable writes, and can be assigned to.
-/

namespace Amalgam.Script

/-- An expression.  One that is not well-formed has an `absent` part at the place where reading ended, and is
evaluated up to there. -/
inductive Formula where
  | number (n : Int)
  | named (name : Text)
  | minus (body : Formula)
  /-- Zero becomes one, and anything else zero. -/
  | isZero (body : Formula)
  | complement (body : Formula)
  | binary (op : String) (left right : Formula)
  | choose (test yes no : Formula)
  /-- An assignment, perhaps with an operation on the old value. -/
  | assign (name : Text) (op : Option String) (value : Formula)
  /-- Something else stands where `what` is expected. -/
  | absent (what : String)
  /-- An expression in parentheses that are not closed. -/
  | unclosed (body : Formula)
  deriving DecidableEq, Repr

/-- What is expected where reading ended, if the expression is not well-formed. -/
def Formula.expected? : Formula → Option String
  | number _ | named _ => none
  | minus body | isZero body | complement body | assign _ _ body => body.expected?
  | binary _ left right => left.expected? <|> right.expected?
  | choose test yes no => test.expected? <|> yes.expected? <|> no.expected?
  | absent what => some what
  | unclosed body => body.expected? <|> some "')'"

/-! ### Reading -/

/-- What was read and the rest; where reading ended early there is no rest. -/
abbrev FormulaReader := Text → Formula × Text

/-- The end of reading at something that is no expression. -/
def noPrimary : Formula × Text :=
  (.absent "primary", [])

/-- Binary operators, each with its rank; a higher rank binds closer. -/
def binaryOperators : List (String × Nat) :=
  [("||", 1), ("&&", 2), ("==", 6), ("!=", 6), ("<=", 7), (">=", 7), ("<<", 8), (">>", 8),
   ("|", 3), ("^", 4), ("&", 5), ("<", 7), (">", 7), ("+", 9), ("-", 9), ("*", 10), ("/", 10), ("%", 10)]

def assignOperators : List (String × Option String) :=
  [("<<=", some "<<"), (">>=", some ">>"), ("*=", some "*"), ("/=", some "/"), ("%=", some "%"),
   ("+=", some "+"), ("-=", some "-"), ("&=", some "&"), ("^=", some "^"), ("|=", some "|")]

def assignOperator? (t : Text) : Option (Option String × Text) :=
  match assignOperators.find? fun (op, _) => op.toList.isPrefixOf t with
  | some (op, action) => some (action, t.drop op.length)
  | none =>
    match t with
    | '=' :: '=' :: _ => none
    | '=' :: rest => some (none, rest)
    | _ => none

def binaryOperator? (t : Text) : Option (String × Nat × Text) :=
  if (assignOperator? t).isSome then none
  else
    (binaryOperators.find? fun (op, _) => op.toList.isPrefixOf t).map fun (op, rank) =>
      (op, rank, t.drop op.length)

mutual

/-- An expression that stands alone or between parentheses. -/
def formulaAt : Nat → FormulaReader
  | 0, _ => noPrimary
  | fuel + 1, t =>
    let t := trimSpace t
    let name := t.takeWhile isNameChar
    if isName name then
      match assignOperator? (trimSpace (t.dropWhile isNameChar)) with
      | some (op, rest) =>
        let (value, rest) := formulaAt fuel rest
        (.assign name op value, rest)
      | none => choiceAt fuel t
    else choiceAt fuel t

def choiceAt : Nat → FormulaReader
  | 0, _ => noPrimary
  | fuel + 1, t =>
    let (test, rest) := rankedAt fuel 1 t
    match trimSpace rest with
    | '?' :: rest =>
      let (yes, rest) := formulaAt fuel rest
      match trimSpace rest with
      | ':' :: rest =>
        let (no, rest) := choiceAt fuel rest
        (.choose test yes no, rest)
      | _ => (.choose test yes (.absent "':'"), [])
    | rest => (test, rest)

def rankedAt : Nat → Nat → FormulaReader
  | 0, _, _ => noPrimary
  | fuel + 1, rank, t =>
    let (first, rest) := primaryAt fuel t
    operatorsAt fuel rank first rest

def operatorsAt : Nat → Nat → Formula → FormulaReader
  | 0, _, _, _ => noPrimary
  | fuel + 1, rank, left, t =>
    match binaryOperator? (trimSpace t) with
    | some (op, r, rest) =>
      if rank ≤ r then
        let (right, rest) := rankedAt fuel (r + 1) rest
        operatorsAt fuel rank (.binary op left right) rest
      else (left, t)
    | none => (left, t)

def primaryAt : Nat → FormulaReader
  | 0, _ => noPrimary
  | fuel + 1, t =>
    let behind (wrap : Formula → Formula) (rest : Text) : Formula × Text :=
      let (body, rest) := primaryAt fuel rest
      (wrap body, rest)
    match trimSpace t with
    | '(' :: rest =>
      let (body, rest) := formulaAt fuel rest
      match trimSpace rest with
      | ')' :: rest => (body, rest)
      | _ => (.unclosed body, [])
    | '+' :: rest => primaryAt fuel rest
    | '-' :: rest => behind .minus rest
    | '~' :: rest => behind .complement rest
    | '!' :: rest => behind .isZero rest
    | t =>
      let name := t.takeWhile isNameChar
      if isName name then (.named name, t.dropWhile isNameChar)
      else if (t.head?.map Char.isDigit).getD false then
        let (n, rest) := numberAt t
        (.number (min n greatest), rest)
      else noPrimary

end

/-- The expression at the start of a text, and what comes after it. -/
def readFormula : FormulaReader := fun t =>
  formulaAt (4 * t.length + 16) t

/-! ### Values -/

def truth (b : Bool) : Int :=
  if b then 1 else 0

/-- The value of a binary operation; none where a number is divided by zero. -/
def operate (op : String) (a b : Int) : Option Int :=
  match op with
  | "+" => some (wrapped (a + b))
  | "-" => some (wrapped (a - b))
  | "*" => some (wrapped (a * b))
  | "/" => if b = 0 then none else some (wrapped (a.tdiv b))
  | "%" => if b = 0 then none else some (wrapped (a.tmod b))
  | "<<" => some (wrapped (bitsOf a <<< (bitsOf b % 64)))
  | ">>" => some (a >>> (bitsOf b % 64))
  | "&" => some (wrapped (bitsOf a &&& bitsOf b))
  | "^" => some (wrapped (bitsOf a ^^^ bitsOf b))
  | "|" => some (wrapped (bitsOf a ||| bitsOf b))
  | "==" => some (truth (a == b))
  | "!=" => some (truth (a != b))
  | "<" => some (truth (a < b))
  | ">" => some (truth (b < a))
  | "<=" => some (truth (a ≤ b))
  | ">=" => some (truth (b ≤ a))
  | _ => some 0

/-- The number that a text writes; anything else is a fault. -/
def numberOrAbort (anyBase : Bool) (t : Text) : Run Int := do
  match wholeNumber? anyBase t with
  | some n => return n
  | none => abort ("Illegal number: ".toList ++ t)

def variableNumber (name : Text) : Run Int := do
  match (← get).parameter? name with
  | some value => numberOrAbort true value
  | none => return 0

/-- Stops because of what is wrong with an expression. -/
def arithmeticFault {α : Type} (source : Text) (text : String) : Run α :=
  abort ("arithmetic expression: ".toList ++ text.toList ++ ": \"".toList ++ source ++ ['"'])

def operateOrAbort (source : Text) (op : String) (a b : Int) : Run Int := do
  match operate op a b with
  | some n => return n
  | none => arithmeticFault source "division by zero"

/-- Stops if an expression that is not evaluated is not well-formed. -/
def skipFormula (source : Text) (formula : Formula) : Run Unit := do
  match formula.expected? with
  | some what => arithmeticFault source ("expecting " ++ what)
  | none => return ()

/-- The value of an expression, whose text is `source`.  A part that does not count is not evaluated, but has
to be well-formed. -/
def Formula.evaluate (source : Text) : Formula → Run Int
  | number n => return wrapped n
  | named name => variableNumber name
  | minus body => return wrapped (-(← body.evaluate source))
  | isZero body => return truth ((← body.evaluate source) == 0)
  | complement body => return wrapped (-(← body.evaluate source) - 1)
  | binary op left right => do
    let a ← left.evaluate source
    if op = "&&" && a = 0 then
      skipFormula source right
      return 0
    else if op = "||" && a ≠ 0 then
      skipFormula source right
      return 1
    else
      let b ← right.evaluate source
      if op = "&&" || op = "||" then return truth (b != 0) else operateOrAbort source op a b
  | choose test yes no => do
    if (← test.evaluate source) ≠ 0 then
      let value ← yes.evaluate source
      skipFormula source no
      return value
    else
      skipFormula source yes
      no.evaluate source
  | assign name op value => do
    let new ← value.evaluate source
    let result ← match op with
      | some op => operateOrAbort source op (← variableNumber name) new
      | none => pure new
    setVariable name (ofInt result)
    return result
  | absent what => arithmeticFault source ("expecting " ++ what)
  | unclosed body => do
    let _ ← body.evaluate source
    arithmeticFault source "expecting ')'"

/-- The value of a text.  What comes after the expression is looked at last. -/
def arithmetic (source : Text) : Run Int := do
  let (formula, rest) := readFormula source
  let value ← formula.evaluate source
  if !(trimSpace rest).isEmpty then arithmeticFault source "expecting EOF"
  return value

end Amalgam.Script
