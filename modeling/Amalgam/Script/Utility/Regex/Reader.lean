import Amalgam.Script.Utility.Regex

/-!
# Reading regular expressions

Two ways of writing regular expressions: the basic one, where groups and counts are written with a backslash,
and the extended one.  Programs differ in what they make of texts that neither of them explains.
-/

namespace Amalgam.Script

/-- What is wrong with the text of an expression. -/
inductive RegexFault where
  | openBracket
  | emptyBracket
  | openGroup
  | closedGroup
  | openCount
  | badCount
  | hugeCount
  | backslash
  | badRange
  | badClass
  | badSymbol
  | badReference
  | nothingRepeated
  deriving DecidableEq, Repr

def RegexFault.text : RegexFault → String
  | openBracket => "Unmatched [, [^, [:, [., or [="
  | emptyBracket => "Invalid regular expression"
  | openGroup => "Unmatched ( or \\("
  | closedGroup => "Unmatched ) or \\)"
  | openCount => "Unmatched \\\x7b"
  | badCount => "Invalid content of \\\x7b\\\x7d"
  | hugeCount => "Regular expression too big"
  | backslash => "Trailing backslash"
  | badRange => "Invalid range end"
  | badClass => "Invalid character class name"
  | badSymbol => "Invalid collation character"
  | badReference => "Invalid back reference"
  | nothingRepeated => "Invalid preceding regular expression"

/-- What an operator means that has nothing to repeat. -/
inductive BareOperator where
  | fault
  | literal
  | empty
  deriving DecidableEq, Repr

structure RegexStyle where
  extended : Bool
  bare : BareOperator := .literal
  /-- An expression that is repeated must not be repeated again without parentheses. -/
  onceOnly : Bool := false
  /-- A closing parenthesis without an opening one stands for itself. -/
  looseClosing : Bool := false
  /-- A brace that starts no count stands for itself. -/
  looseCounts : Bool := false
  /-- A range whose ends are in the wrong order holds nothing. -/
  emptyRanges : Bool := false
  deriving DecidableEq, Repr

def editBasic : RegexStyle := { extended := false, bare := .fault, onceOnly := true }

def editExtended : RegexStyle := { extended := true, bare := .fault }

def searchBasic : RegexStyle := { extended := false }

def searchExtended : RegexStyle :=
  { extended := true, bare := .empty, looseClosing := true, looseCounts := true }

def operandStyle : RegexStyle := { extended := false, emptyRanges := true }

/-! ### Brackets -/

def isClassName (name : Text) : Bool :=
  ["alpha", "digit", "alnum", "upper", "lower", "space", "blank", "punct", "print", "graph", "cntrl",
    "xdigit"].contains (String.ofList name)

inductive BracketElement where
  | char (c : Char)
  | named (name : String)
  /-- The characters that are equivalent to one. -/
  | alike (c : Char)

/-- The text up to a sign and a closing bracket, and the rest after them. -/
def symbolEnd (sign : Char) : Text → Option (Text × Text)
  | a :: b :: rest =>
    if a = sign ∧ b = ']' then some ([], rest)
    else (symbolEnd sign (b :: rest)).map fun (name, after) => (a :: name, after)
  | _ => none

/-- The element at the start of a text, and the rest.  A hyphen can only be one if `hyphen` is set, or at the
end. -/
def bracketElement (hyphen : Bool) (t : Text) : Except RegexFault (BracketElement × Text) :=
  let symbol (sign : Char) (rest : Text) : Except RegexFault (BracketElement × Text) :=
    match symbolEnd sign rest with
    | none => .error .openBracket
    | some (name, after) =>
      match sign, name with
      | ':', _ =>
        if isClassName name then .ok (.named (String.ofList name), after) else .error .badClass
      | '=', [c] => .ok (.alike c, after)
      | _, [c] => .ok (.char c, after)
      | _, _ => .error .badSymbol
  match t with
  | [] => .error .openBracket
  | '[' :: '.' :: rest => symbol '.' rest
  | '[' :: '=' :: rest => symbol '=' rest
  | '[' :: ':' :: rest => symbol ':' rest
  | '-' :: rest => if hyphen || rest.head? = some ']' then .ok (.char '-', rest) else .error .badRange
  | c :: rest => .ok (.char c, rest)

/-- The items between brackets, after those read so far; `fuel` bounds their number. -/
def bracketItems (style : RegexStyle) : Nat → Bool → List BracketItem → Text →
    Except RegexFault (List BracketItem × Text)
  | 0, _, _, _ => .error .openBracket
  | fuel + 1, first, items, t => do
    match t, first with
    | ']' :: rest, false => return (items.reverse, rest)
    | _, _ =>
      let (start, rest) ← bracketElement first t
      match start, rest with
      | .named name, _ => bracketItems style fuel false (.named name :: items) rest
      | .alike c, _ => bracketItems style fuel false (.one c :: items) rest
      | .char low, '-' :: later =>
        match later with
        | [] => throw .openBracket
        | ']' :: _ => bracketItems style fuel false (.one low :: items) rest
        | _ =>
          match ← bracketElement true later with
          | (.char high, rest) =>
            if low ≤ high then bracketItems style fuel false (.range low high :: items) rest
            else if style.emptyRanges then bracketItems style fuel false items rest
            else throw .badRange
          | _ => throw .badRange
      | .char c, _ => bracketItems style fuel false (.one c :: items) rest

def bracketAt (style : RegexStyle) (t : Text) : Except RegexFault (Regex × Text) := do
  let (negated, body) := match t with
    | '^' :: rest => (true, rest)
    | _ => (false, t)
  if body.isEmpty then throw .emptyBracket
  let (items, rest) ← bracketItems style (body.length + 1) true [] body
  return (.oneOf negated items, rest)

/-! ### Counts -/

def maxRepeats : Nat := 32767

inductive CountEnd where
  | comma
  | close
  | missing
  deriving DecidableEq, Repr

/-- A number in a count, which may be missing or wrong, what ends it, and the rest. -/
def countNumber (extended : Bool) : Option (Option Nat) → Text → Option (Option Nat) × CountEnd × Text
  | n, [] => (n, .missing, [])
  | n, ',' :: rest => (n, .comma, rest)
  | n, '\\' :: '}' :: rest => if extended then countNumber extended none rest else (n, .close, rest)
  | n, '}' :: rest => if extended then (n, .close, rest) else countNumber extended none rest
  | n, c :: rest =>
    let next : Option (Option Nat) := match n with
      | none => none
      | some value =>
        if c.isDigit then some (some (min (maxRepeats + 1) (value.getD 0 * 10 + (c.toNat - 48)))) else none
    countNumber extended next rest

/-- A count between braces, after the opening one; nothing if the brace stands for itself. -/
def countAt (style : RegexStyle) (t : Text) : Except RegexFault (Option (Nat × Option Nat × Text)) := do
  let loose (stop : CountEnd) : Except RegexFault (Option (Nat × Option Nat × Text)) :=
    if style.looseCounts then .ok none
    else .error (if stop = .missing then .openCount else .badCount)
  match countNumber style.extended (some none) t with
  | (_, .missing, _) => loose .missing
  | (none, stop, _) => loose stop
  | (some none, .close, _) => throw .badCount
  | (some (some n), .close, rest) => if maxRepeats < n then throw .hugeCount else return some (n, some n, rest)
  | (some least, .comma, rest) =>
    let least := least.getD 0
    match countNumber style.extended (some none) rest with
    | (_, .missing, _) => loose .missing
    | (none, stop, _) => loose stop
    | (some _, .comma, _) => throw .badCount
    | (some most, .close, rest) =>
      if most.any (· < least) then throw .badCount
      else if maxRepeats < most.getD least then throw .hugeCount
      else return some (least, most, rest)

/-! ### Expressions -/

/-- What was read of an expression, the rest, and how many groups were opened. -/
abbrev RegexReader := Except RegexFault (Regex × Text × Nat)

/-- An operator that says how often what stands before it is repeated, and the rest. -/
def repetitionAt (style : RegexStyle) (t : Text) : Except RegexFault (Option (Nat × Option Nat × Text)) :=
  match style.extended, t with
  | _, '*' :: rest => .ok (some (0, none, rest))
  | true, '+' :: rest => .ok (some (1, none, rest))
  | true, '?' :: rest => .ok (some (0, some 1, rest))
  | true, '{' :: rest => countAt style rest
  | false, '\\' :: '+' :: rest => .ok (some (1, none, rest))
  | false, '\\' :: '?' :: rest => .ok (some (0, some 1, rest))
  | false, '\\' :: '{' :: rest => countAt style rest
  | _, _ => .ok none

def startsOperator (extended : Bool) (t : Text) : Bool :=
  match extended, t with
  | _, '*' :: _ => true
  | true, c :: _ => c == '+' || c == '?' || c == '{'
  | false, '\\' :: c :: _ => c == '+' || c == '?' || c == '{'
  | _, _ => false

def escapedChar : Char → Char
  | 'n' => '\n'
  | 't' => '\t'
  | c => c

def wordItems : List BracketItem := [.one '_', .named "alnum"]

/-- The expression that an escaped letter stands for, if it is not a character. -/
def escapedClass? : Char → Option Regex
  | 'w' => some (.oneOf false wordItems)
  | 'W' => some (.oneOf true wordItems)
  | 's' => some (.oneOf false [.named "space"])
  | 'S' => some (.oneOf true [.named "space"])
  | 'b' => some (.wordEdge true)
  | 'B' => some (.wordEdge false)
  | '<' => some .wordStart
  | '>' => some .wordEnd
  | '\'' => some .textEnd
  | c => if c = '\x60' then some .textStart else none

def mayRepeat (style : RegexStyle) (r : Regex) (t : Text) : Bool :=
  if style.bare ≠ .fault then true
  else if style.extended then r != .lineStart
  else if style.onceOnly then
    match r, t with
    | .times _ _ _, '\\' :: '{' :: _ => false
    | .times _ _ _, '\\' :: _ => true
    | .times _ _ _, _ => false
    | _, _ => true
  else true

def withRepetitions (style : RegexStyle) : Nat → Regex → Text → Except RegexFault (Regex × Text)
  | 0, r, t => .ok (r, t)
  | fuel + 1, r, t =>
    match repetitionAt style t with
    | .error fault =>
      .error (if !style.extended && !mayRepeat style r t then .nothingRepeated else fault)
    | .ok (some (least, most, rest)) =>
      if mayRepeat style r t then withRepetitions style fuel (.times least most r) rest
      else .error .nothingRepeated
    | .ok none => .ok (r, t)

/-- Does what is left of a sequence belong to what is around it?  `inside` says that a group is open. -/
def sequenceStops (style : RegexStyle) (inside : Bool) (t : Text) : Bool :=
  match style.extended, t with
  | _, [] => true
  | true, '|' :: _ => true
  | true, ')' :: _ => inside || !style.looseClosing
  | false, '\\' :: '|' :: _ => true
  | false, '\\' :: ')' :: _ => true
  | _, _ => false

mutual

def alternativesAt (style : RegexStyle) : Nat → Bool → Nat → Text → RegexReader
  | 0, _, _, _ => .error .openGroup
  | fuel + 1, inside, groups, t => do
    let (first, rest, groups) ← sequenceAt style fuel inside groups true .nothing t
    match style.extended, rest with
    | true, '|' :: rest =>
      let (second, rest, groups) ← alternativesAt style fuel inside groups rest
      return (.either first second, rest, groups)
    | false, '\\' :: '|' :: rest =>
      let (second, rest, groups) ← alternativesAt style fuel inside groups rest
      return (.either first second, rest, groups)
    | _, _ => return (first, rest, groups)

/-- Expressions one after the other, after those read so far; `first` says that none was read. -/
def sequenceAt (style : RegexStyle) : Nat → Bool → Nat → Bool → Regex → Text → RegexReader
  | 0, _, _, _, _, _ => .error .openGroup
  | fuel + 1, inside, groups, first, before, t =>
    if sequenceStops style inside t then .ok (before, t, groups)
    else do
      let (r, rest, groups) ← elementAt style fuel groups first t
      let anchor := r = .lineStart ∧ !style.extended
      let (r, rest) ←
        if anchor then
          if style.bare = .fault ∧ ['\\', '{'].isPrefixOf rest then throw .nothingRepeated
          else pure (r, rest)
        else withRepetitions style rest.length r rest
      sequenceAt style fuel inside groups (first && r = .lineStart)
        (if before = .nothing then r else .follow before r) rest

def elementAt (style : RegexStyle) : Nat → Nat → Bool → Text → RegexReader
  | 0, _, _, _ => .error .openGroup
  | fuel + 1, groups, first, t =>
    let grouped (rest : Text) : RegexReader := do
      let index := groups + 1
      let (body, rest, groups) ← alternativesAt style fuel true index rest
      match style.extended, rest with
      | true, ')' :: rest => return (.group index body, rest, groups)
      | false, '\\' :: ')' :: rest => return (.group index body, rest, groups)
      | _, _ => throw .openGroup
    if style.extended && startsOperator true t && style.bare ≠ .literal then
      if style.bare = .fault then .error .nothingRepeated
      else
        match repetitionAt style t with
        | .ok (some _) => .ok (.nothing, t, groups)
        | .ok none => .ok (.char (t.headD ' '), t.drop 1, groups)
        | .error fault => .error fault
    else
      match t with
      | [] => .error .backslash
      | '\\' :: c :: rest =>
        if c = '(' ∧ !style.extended then grouped rest
        else if c = '{' ∧ !style.extended ∧ style.bare = .fault then .error .nothingRepeated
        else if c.isDigit ∧ c ≠ '0' then
          if groups < c.toNat - 48 then .error .badReference
          else .ok (.again (c.toNat - 48), rest, groups)
        else
          match escapedClass? c with
          | some r => .ok (r, rest, groups)
          | none => .ok (.char (escapedChar c), rest, groups)
      | '\\' :: [] => .error .backslash
      | '[' :: rest => do
        let (r, rest) ← bracketAt style rest
        return (r, rest, groups)
      | '.' :: rest => .ok (.any, rest, groups)
      | '^' :: rest =>
        if style.extended || first then .ok (.lineStart, rest, groups) else .ok (.char '^', rest, groups)
      | '$' :: rest =>
        let ends := style.extended || rest.isEmpty ||
          ['\\', ')'].isPrefixOf rest || ['\\', '|'].isPrefixOf rest
        if ends then .ok (.lineEnd, rest, groups) else .ok (.char '$', rest, groups)
      | '(' :: rest => if style.extended then grouped rest else .ok (.char '(', rest, groups)
      | c :: rest => .ok (.char c, rest, groups)

end

def readStyled (style : RegexStyle) (t : Text) : Except RegexFault Regex := do
  let (r, rest, _) ← alternativesAt style (4 * t.length + 8) false 0 t
  if rest.isEmpty then return r else throw .closedGroup

end Amalgam.Script
