import Amalgam.Script.Utility

/-!
# Repeated lines

The program that shows lines that occur several times in a row once, or with counts, or only some of them.
-/

namespace Amalgam.Script

/-- Where empty lines stand between groups of lines. -/
inductive GroupGaps where
  | none
  | before
  | after
  | between
  | around
  deriving DecidableEq, Repr

/-- What of lines is compared, and which are shown. -/
structure RepeatPlan where
  skippedFields : Nat := 0
  skippedChars : Nat := 0
  /-- How many characters are compared at most. -/
  compared : Option Nat := none
  foldCase : Bool := false
  counts : Bool := false
  single : Bool := true
  first : Bool := true
  /-- The others of several lines are shown as well. -/
  later : Bool := false
  gaps : GroupGaps := .none
  grouped : Bool := false
  stop : Char := '\n'
  oldDigits : Bool := false

def withoutFields : Nat → Text → Text
  | 0, t => t
  | n + 1, t => withoutFields n ((t.dropWhile isGap).dropWhile (!isGap ·))

def RepeatPlan.key (p : RepeatPlan) (line : Text) : Text :=
  let t := (withoutFields (min p.skippedFields line.length) line).drop p.skippedChars
  let t := match p.compared with
    | some n => t.take n
    | none => t
  if p.foldCase then t.map Char.toUpper else t

/-- Lines that are alike and follow each other, together; the last group first, and in it the last line. -/
def groupsOf (key : Text → Text) (lines : List Text) : List (Text × List Text) :=
  lines.foldl
    (fun groups line =>
      let k := key line
      match groups with
      | (last, members) :: rest => if last = k then (last, line :: members) :: rest else (k, [line]) :: groups
      | [] => [(k, [line])])
    []

def RepeatPlan.shown (p : RepeatPlan) (group : List Text) : List Text :=
  match group with
  | [] => []
  | line :: others =>
    let counted : Text := if p.counts then padLeft 7 (ofNat group.length) ++ ' ' :: line else line
    if others.isEmpty then (if p.single then [counted] else [])
    else if p.later then (if p.first then group else group.dropLast)
    else if p.first then [counted] else []

def withGaps (gaps : GroupGaps) (groups : List (List Text)) : List Text :=
  match gaps with
  | .none => groups.flatten
  | .before => groups.flatMap fun group => [] :: group
  | .after => groups.flatMap fun group => group ++ [[]]
  | .between => ((groups.flatMap fun group => [] :: group)).drop 1
  | .around => if groups.isEmpty then [] else (groups.flatMap fun group => [] :: group) ++ [[]]

def repeatSetting (p : RepeatPlan) (key : String) (value : Text) : Except (Text × Bool) RepeatPlan :=
  let number (what : String) : Except (Text × Bool) Nat :=
    match sizeOf "" value with
    | .ok n => .ok n
    | .error .tooLarge => .ok maxSize
    | .error .invalid => .error (value ++ ": ".toList ++ what.toList, false)
  match key with
  | "f" => (number "invalid number of fields to skip").map fun n => { p with skippedFields := n }
  | "s" => (number "invalid number of bytes to skip").map fun n => { p with skippedChars := n }
  | "w" => (number "invalid number of bytes to compare").map fun n => { p with compared := some n }
  | "i" => .ok { p with foldCase := true }
  | "c" => .ok { p with counts := true }
  | "d" => .ok { p with single := false }
  | "u" => .ok { p with first := false }
  | "z" => .ok { p with stop := lineEnd true }
  | "D" | "all-repeated" =>
    let p := { p with single := false, later := true }
    if value.isEmpty then .ok { p with gaps := .none }
    else
      match choiceOf "--all-repeated"
          [(["none"], GroupGaps.none), (["prepend"], .before), (["separate"], .between)] value with
      | .ok gaps => .ok { p with gaps }
      | .error text => .error (text, true)
  | "group" =>
    let p := { p with grouped := true }
    if value.isEmpty then .ok { p with gaps := .between }
    else
      match choiceOf "--group" [(["prepend"], GroupGaps.before), (["append"], .after),
          (["separate"], .between), (["both"], .around)] value with
      | .ok gaps => .ok { p with gaps }
      | .error text => .error (text, true)
  | digit =>
    let start := if p.oldDigits then p.skippedFields else 0
    .ok { p with skippedFields := start * 10 + digitsValue digit.toList, oldDigits := true }

def uniqTool : Utility := fun _ name args =>
  let spec : OptionSpec :=
    { flags := "Dcdiuz0123456789", valued := "fsw",
      long := [.same "count" 'c', .same "repeated" 'd', .attached "all-repeated", .attached "group",
        .same "ignore-case" 'i', .same "unique" 'u', .same "skip-fields" 'f', .same "skip-chars" 's',
        .same "check-chars" 'w', .same "zero-terminated" 'z'] }
  withSettings spec 1 name args {} repeatSetting fun p o => do
    let isOld (t : Text) : Bool := t.head? = some '+' && (natOf? (t.drop 1)).isSome
    let p := (o.operands.filter isOld).foldl
      (fun (p : RepeatPlan) t => { p with skippedChars := digitsValue (t.drop 1) }) p
    let operands := o.operands.filter (!isOld ·)
    if let some extra := operands[2]? then
      return ← misused name 1 ("extra operand ".toList ++ cited extra)
    if p.grouped && (o.has 'c' || o.has 'd' || o.has 'u' || p.later) then
      return ← misused name 1 "--group is mutually exclusive with -c/-d/-D/-u".toList
    if p.counts && p.later then
      return ← misused name 1 "printing all duplicated lines and repeat counts is meaningless".toList
    let path := operands.headD ['-']
    match ← readOperand path with
    | .error e =>
      let reading := e = .isDirectory || e = .badDescriptor
      toolFails name 1 (because
        (if reading then "error reading ".toList ++ quoted path else shownName path) e)
    | .ok text =>
      let groups := ((groupsOf p.key (barePieces p.stop text)).map fun (_, group) => group.reverse).reverse
      let shown := if p.grouped then groups else (groups.map p.shown).filter (!·.isEmpty)
      let result := (withGaps p.gaps shown).flatMap (· ++ [p.stop])
      match operands[1]? with
      | none | some ['-'] =>
        say result
        return 0
      | some target =>
        match ← openFile target .write with
        | .ok id =>
          writeChannel id result
          return 0
        | .error e => toolFails name 1 (because (shownName target) e)

end Amalgam.Script
