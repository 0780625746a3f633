import Amalgam.Script.Utility.Count
import Amalgam.Script.Utility.Show

/-!
# Comparing files byte by byte
-/

namespace Amalgam.Script

structure Comparison where
  /-- All differences are listed, not only the first. -/
  all : Bool := false
  silent : Bool := false
  characters : Bool := false
  /-- How many bytes of each file are left out. -/
  skipped : Nat × Nat := (0, 0)
  limit : Option Nat := none

def byteUnits : String := "kKMGTPEZY0"

def comparisonSetting (c : Comparison) (key : String) (value : Text) : Except Text Comparison :=
  let number (what : String) (t : Text) : Except Text Nat :=
    match sizeOf byteUnits t with
    | .ok n => .ok n
    | .error _ => .error (("invalid --" ++ what ++ " value ").toList ++ quoted value)
  match key with
  | "b" => .ok { c with characters := true }
  | "l" => if c.silent then .error "options -l and -s are incompatible".toList else .ok { c with all := true }
  | "s" => if c.all then .error "options -l and -s are incompatible".toList else .ok { c with silent := true }
  | "n" => do return { c with limit := some (← number "bytes" value) }
  | "i" => do
    match splitAt ':' value with
    | [left, right] =>
      return { c with skipped := (← number "ignore-initial" left, ← number "ignore-initial" right) }
    | _ =>
      let n ← number "ignore-initial" value
      return { c with skipped := (n, n) }
  | _ => .ok c

/-- A place at which texts differ: its number, its line, and the characters there. -/
structure Difference where
  place : Nat
  line : Nat
  left : Char
  right : Char
  deriving DecidableEq, Repr

def differences (a b : Text) : List Difference :=
  let step (state : Nat × Nat × List Difference) (pair : Char × Char) : Nat × Nat × List Difference :=
    let (place, line, found) := state
    (place + 1, if pair.1 = '\n' then line + 1 else line,
      if pair.1 = pair.2 then found else ⟨place, line, pair.1, pair.2⟩ :: found)
  ((a.zip b).foldl step (1, 1, [])).2.2.reverse

def octalColumn (c : Char) : Text :=
  padLeft 3 (Nat.toDigits 8 c.toNat)

def namedByte (width : Nat) (c : Char) : Text :=
  let shown := if c = '\n' then ['^', 'J'] else visibleChar true c
  octalColumn c ++ ' ' :: padRight width shown

/-- The words for the end of a file before another one.  `t` is what was compared. -/
def endWords (withLine : Bool) (path t : Text) : Text :=
  let start := "EOF on ".toList ++ path
  if t.isEmpty then start ++ " which is empty".toList
  else
    let lines := t.count '\n'
    let line := if !withLine then []
      else if t.getLast? = some '\n' then ", line ".toList ++ ofNat lines
      else ", in line ".toList ++ ofNat (lines + 1)
    start ++ " after byte ".toList ++ ofNat t.length ++ line

def compareTexts (c : Comparison) (name left right a b : Text) (width : Nat) : Run Nat := do
  if a = b then return 0
  if c.silent then return 1
  let found := differences a b
  let shorter : Option (Text × Text) :=
    if a.length < b.length then some (left, a) else if b.length < a.length then some (right, b) else none
  let sayEnd : Run Unit := do
    match shorter with
    | some (path, t) => toolSays name (endWords (!c.all) path t)
    | none => pure ()
  if c.all then
    sayEnd
    say (found.flatMap fun d =>
      let numbers := if c.characters then namedByte 4 d.left ++ ' ' :: namedByte 0 d.right
        else octalColumn d.left ++ ' ' :: octalColumn d.right
      asLine (padLeft width (ofNat d.place) ++ ' ' :: numbers))
  else
    match found with
    | d :: _ =>
      let unit := if c.characters then " differ: byte " else " differ: char "
      let bytes := if c.characters then " is ".toList ++ namedByte 0 d.left ++ ' ' :: namedByte 0 d.right
        else []
      say (asLine (left ++ ' ' :: right ++ unit.toList ++ ofNat d.place ++ ", line ".toList ++
        ofNat d.line ++ bytes))
    | [] => sayEnd
  return 1

def cmpTool : Utility := fun _ name args =>
  let refuse (text : Text) : Run Nat := do
    toolSays name text
    toolFails name 2 ("Try '".toList ++ name ++ " --help' for more information.".toList)
  let spec : OptionSpec :=
    { flags := "bls", valued := "in",
      long := [.same "print-bytes" 'b', .same "print-chars" 'b', .same "ignore-initial" 'i',
        .same "verbose" 'l', .same "bytes" 'n', .same "silent" 's', .same "quiet" 's'] }
  withChecked refuse spec name args
    (fun o => do
      match o.given.foldlM (fun c (key, value) => comparisonSetting c key value) ({} : Comparison) with
      | .ok c => return .ok c
      | .error text => return .error (← refuse text))
    fun c o => do
      let (paths, skips) := match o.operands with
        | [] => ([], [])
        | [one] => ([one, ['-']], [])
        | left :: right :: rest => ([left, right], rest)
      let skipOf (t : Text) : Except Text Nat :=
        match sizeOf byteUnits t with
        | .ok n => .ok n
        | .error _ => .error ("invalid --ignore-initial value ".toList ++ quoted t)
      match paths, (skips.take 2).mapM skipOf with
      | _, .error text => refuse text
      | [left, right], .ok numbers =>
        if let some extra := skips[2]? then return ← refuse ("extra operand ".toList ++ quoted extra)
        let skip := (max c.skipped.1 (numbers[0]?.getD 0), max c.skipped.2 (numbers[1]?.getD 0))
        let tree := (← get).tree
        let same := match tree.locate (toPath left), tree.locate (toPath right) with
          | .ok a, .ok b => decide (a = b)
          | _, _ => false
        if left = right && left = ['-'] || (same && skip.1 = skip.2) then return 0
        let sizes ← [left, right].mapM sizeOfOperand
        let a ← readOperand left
        let b ← readOperand right
        let missed (path : Text) (e : OsError) : Run Nat :=
          if c.silent && e != .isDirectory then return 2 else toolFails name 2 (because path e)
        match a, b with
        | .error e, _ => missed left e
        | _, .error e => missed right e
        | .ok a, .ok b =>
          let cut (n : Nat) (t : Text) : Text := match c.limit with
            | some limit => (t.drop n).take limit
            | none => t.drop n
          let known := (sizes.zip [skip.1, skip.2]).filterMap fun (size, n) =>
            match size with
            | some (some size) => some (size - n)
            | _ => none
          let most := known.foldl min (c.limit.getD (Nat.pow 2 63 - 1))
          compareTexts c name left right (cut skip.1 a) (cut skip.2 b) (ofNat most).length
      | _, _ => refuse ("missing operand after ".toList ++ quoted name)

end Amalgam.Script
