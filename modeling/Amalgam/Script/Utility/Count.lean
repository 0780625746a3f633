import Amalgam.Script.Utility

/-!
# Counts

The program that counts lines, words, characters and bytes, and the greatest width of a line.
-/

namespace Amalgam.Script

structure Tally where
  lines : Nat := 0
  words : Nat := 0
  bytes : Nat := 0
  widest : Nat := 0
  deriving DecidableEq, Repr

/-- What is counted while a text is read. -/
structure TallyState extends Tally where
  inWord : Bool := false
  column : Nat := 0

/-- Counts one character.  Characters that are not shown are not part of words and have no width. -/
def TallyState.add (s : TallyState) (c : Char) : TallyState :=
  let s := { s with bytes := s.bytes + 1 }
  let lineDone (s : TallyState) : TallyState :=
    { s with widest := max s.widest s.column, column := 0, inWord := false }
  match c with
  | '\n' => lineDone { s with lines := s.lines + 1 }
  | '\r' => lineDone s
  | '\t' => { s with column := s.column + 8 - s.column % 8, inWord := false }
  | ' ' => { s with column := s.column + 1, inWord := false }
  | _ =>
    if c.toNat = 12 then lineDone s
    else if c.toNat = 11 then { s with inWord := false }
    else if isUnshown c then s
    else { s with column := s.column + 1, inWord := true, words := if s.inWord then s.words else s.words + 1 }

def tally (t : Text) : Tally :=
  let s := t.foldl TallyState.add {}
  { s.toTally with widest := max s.widest s.column }

def Tally.plus (a b : Tally) : Tally :=
  ⟨a.lines + b.lines, a.words + b.words, a.bytes + b.bytes, max a.widest b.widest⟩

/-- The size of the file that an operand names, if it is one: nothing if there is no such thing. -/
def sizeOfOperand (path : Text) : Run (Option (Option Nat)) := do
  let tree := (← get).tree
  let sizeAt (loc : Location) : Option Nat := match tree.entry? loc with
    | some (.file content _) => some content.length
    | some (.program _) => some 0
    | _ => none
  let fd? := if path = ['-'] then some 0 else descriptorNamed? tree path
  match fd? with
  | some fd =>
    match ← channelOf? fd with
    | none => return none
    | some (_, .stream _) => return some none
    | some (_, .file loc _ _) => return some (sizeAt loc)
  | none =>
    match tree.locate (toPath path) with
    | .ok loc => return some (sizeAt loc)
    | .error _ => return none

/-- How wide the columns are: as wide as the size of all files together, and wide if the size of something is
not known before it is read. -/
def columnWidth (operands : List Text) : Run Nat := do
  let sizes ← operands.mapM sizeOfOperand
  let known := sizes.filterMap id
  let total := known.foldl (fun n size => n + size.getD 0) 0
  let least := if known.all Option.isSome then 1 else 7
  return max least (ofNat total).length

/-- The options that say what is counted, in the order of the columns. -/
def tallyColumns : List (Char × (Tally → Nat)) :=
  [('l', Tally.lines), ('w', Tally.words), ('m', Tally.bytes), ('c', Tally.bytes), ('L', Tally.widest)]

/-- Counts lines, words and bytes.  A directory counts as empty, after a message. -/
def wcTool : Utility := fun _ name args =>
  let spec : OptionSpec :=
    { flags := "lwcmL",
      long := [.same "bytes" 'c', .same "chars" 'm', .same "lines" 'l', .same "words" 'w',
        .valued "files0-from", .same "max-line-length" 'L'] }
  withOptions spec 1 name args fun o => do
    let columns := tallyColumns.filter fun (letter, _) =>
      if o.given.isEmpty then "lwc".toList.contains letter else o.has letter
    let operands := orStandard o.operands
    let width ← if operands.length = 1 && columns.length = 1 then pure 1 else columnWidth operands
    let row (t : Tally) (title : Text) : Text :=
      let numbers := unwords (columns.map fun (_, count) => padLeft width (ofNat (count t)))
      asLine (if title.isEmpty then numbers else numbers ++ ' ' :: title)
    let (status, total) ← operands.foldlM
      (fun (status, total) path => do
        let title := if o.operands.isEmpty then [] else path
        match ← readOperand path with
        | .ok text =>
          let t := tally text
          say (row t title)
          return (status, total.plus t)
        | .error e =>
          toolSays name (because (shownName (if title.isEmpty then "standard input".toList else title)) e)
          if e = .isDirectory || e = .badDescriptor then say (row {} title)
          return (1, total))
      ((0, {}) : Nat × Tally)
    if 1 < operands.length then say (row total "total".toList)
    closingInput name operands status

end Amalgam.Script
