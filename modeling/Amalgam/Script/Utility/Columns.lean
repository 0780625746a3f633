import Amalgam.Script.Utility

/-!
# Columns

The program that takes columns out of lines: bytes, characters or fields at given positions.
-/

namespace Amalgam.Script

/-! ### Positions -/

/-- Positions from one to another, which may be missing. -/
structure PositionRange where
  low : Nat
  high : Option Nat
  deriving DecidableEq, Repr

/-- What is read of a list of positions. -/
structure PositionState where
  found : List PositionRange := []
  value : Nat := 0
  /-- The start of the range that is being read. -/
  initial : Nat := 1
  inRange : Bool := false
  hasLow : Bool := false
  hasHigh : Bool := false
  /-- The rest of the text from the first digit of the number on. -/
  number : Option Text := none

/-- The words for what is wrong with a list of positions; fields have other words than bytes. -/
def positionWords (fields : Bool) (forFields forBytes : String) : Text :=
  (if fields then forFields else forBytes).toList

def zeroPosition (fields : Bool) : Text :=
  positionWords fields "fields are numbered from 1" "byte/character positions are numbered from 1"

def PositionState.close (fields : Bool) (s : PositionState) : Except Text PositionState :=
  let next (r : PositionRange) : Except Text PositionState := .ok { found := r :: s.found }
  if s.inRange then
    if !s.hasLow && !s.hasHigh then .error "invalid range with no endpoint: -".toList
    else if !s.hasHigh then next ⟨s.initial, none⟩
    else if s.value < s.initial then .error "invalid decreasing range".toList
    else next ⟨s.initial, some s.value⟩
  else if s.value = 0 then .error (zeroPosition fields)
  else next ⟨s.value, some s.value⟩

def positionsFrom (fields : Bool) : PositionState → Text → Except Text PositionState
  | s, [] => s.close fields
  | s, c :: rest => do
    if c = '-' then
      if s.inRange then .error (positionWords fields "invalid field range" "invalid byte or character range")
      else if s.hasLow && s.value = 0 then .error (zeroPosition fields)
      else
        positionsFrom fields
          { s with inRange := true, initial := if s.hasLow then s.value else 1, value := 0, number := none } rest
    else if c = ',' ∨ isGap c then positionsFrom fields (← s.close fields) rest
    else if c.isDigit then
      let number := s.number.getD (c :: rest)
      let value := s.value * 10 + (c.toNat - 48)
      if maxSize ≤ value then
        .error (positionWords fields "field number " "byte/character offset " ++
          cited (number.takeWhile Char.isDigit) ++ " is too large".toList)
      else
        positionsFrom fields
          { s with
            value, number := some number
            hasLow := s.hasLow || !s.inRange
            hasHigh := s.hasHigh || s.inRange } rest
    else
      .error (positionWords fields "invalid field value " "invalid byte/character position " ++ cited (c :: rest))

def joinedRanges (ranges : List PositionRange) : List PositionRange :=
  ((ranges.mergeSort fun a b => a.low ≤ b.low).foldl
    (fun joined r =>
      match joined with
      | last :: before =>
        match last.high with
        | none => joined
        | some high =>
          if high < r.low then r :: joined else { last with high := r.high.map (max high) } :: before
      | [] => [r])
    []).reverse

/-- The ranges between ranges that are in order, from a position on. -/
def gapsFrom : Nat → List PositionRange → List PositionRange
  | start, [] => [⟨start, none⟩]
  | start, r :: rest =>
    let before := if start < r.low then [⟨start, some (r.low - 1)⟩] else []
    match r.high with
    | none => before
    | some high => before ++ gapsFrom (high + 1) rest

def readPositions (fields : Bool) (t : Text) : Except Text (List PositionRange) := do
  let s ← positionsFrom fields {} t
  return joinedRanges s.found.reverse

def piecesAt {α : Type} (ranges : List PositionRange) (xs : List α) : List (List α) :=
  (ranges.map fun r => match r.high with
    | some high => (xs.drop (r.low - 1)).take (high + 1 - r.low)
    | none => xs.drop (r.low - 1)).filter (!·.isEmpty)

/-! ### The program -/

structure CutPlan where
  /-- The list of positions, and whether it counts fields. -/
  list : Option (Bool × Text) := none
  separator : Option Char := none
  /-- What stands between the pieces that are shown. -/
  output : Option Text := none
  complement : Bool := false
  suppress : Bool := false
  stop : Char := '\n'

def cutSetting (p : CutPlan) (key : String) (value : Text) : Except (Text × Bool) CutPlan :=
  match key with
  | "b" | "c" | "f" =>
    if p.list.isSome then .error ("only one list may be specified".toList, true)
    else .ok { p with list := some (key == "f", value) }
  | "d" =>
    match value with
    | [] => .ok { p with separator := some (Char.ofNat 0) }
    | [c] => .ok { p with separator := some c }
    | _ => .error ("the delimiter must be a single character".toList, true)
  | "output-delimiter" => .ok { p with output := some (if value.isEmpty then [Char.ofNat 0] else value) }
  | "complement" => .ok { p with complement := true }
  | "s" => .ok { p with suppress := true }
  | "z" => .ok { p with stop := lineEnd true }
  | _ => .ok p

def joinedBy (between : Text) : List Text → Text
  | [] => []
  | first :: rest => first ++ rest.flatMap (between ++ ·)

def CutPlan.bytes (p : CutPlan) (ranges : List PositionRange) (line : Text) : Text :=
  joinedBy (p.output.getD []) (piecesAt ranges line)

def CutPlan.fields (p : CutPlan) (ranges : List PositionRange) (line : Text) : Option Text :=
  let separator := p.separator.getD '\t'
  match splitAt separator line with
  | [_] => if p.suppress then none else some line
  | fields => some (joinedBy (p.output.getD [separator]) (piecesAt ranges fields).flatten)

def cutTool : Utility := fun _ name args =>
  let spec : OptionSpec :=
    { flags := "nsz", valued := "bcdf",
      long := [.same "bytes" 'b', .same "characters" 'c', .same "fields" 'f', .same "delimiter" 'd',
        .same "only-delimited" 's', .valued "output-delimiter", .flag "complement",
        .same "zero-terminated" 'z'] }
  withSettings spec 1 name args {} cutSetting fun p o => do
    match p.list with
    | none => misused name 1 "you must specify a list of bytes, characters, or fields".toList
    | some (fields, t) =>
      if !fields && p.separator.isSome then
        return ← misused name 1 "an input delimiter may be specified only when operating on fields".toList
      if !fields && p.suppress then
        return ← misused name 1
          "suppressing non-delimited lines makes sense\n\tonly when operating on fields".toList
      match readPositions fields t with
      | .error text => misused name 1 text
      | .ok ranges =>
        let ranges := if p.complement then gapsFrom 1 ranges else ranges
        let closed (t : Text) : Text := t ++ [p.stop]
        closingInput name o.operands =<< forInputs name o.operands plainRefusal fun _ text =>
          let lines := barePieces p.stop text
          if !fields then say (lines.flatMap fun line => closed (p.bytes ranges line))
          else if p.separator = some p.stop then
            let shown := (piecesAt ranges lines).flatten
            say (if lines.length ≤ 1 then (if p.suppress then [] else lines.flatMap closed)
              else closed (joinedBy (p.output.getD [p.stop]) shown))
          else say (lines.flatMap fun line => ((p.fields ranges line).map closed).getD [])

end Amalgam.Script
