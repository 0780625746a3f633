import Amalgam.Script.Format
import Amalgam.Script.Utility
import Amalgam.Script.Utility.Regex.Reader

/-!
# Characters

The program that replaces, removes or squeezes characters.  Sets of characters are written as texts in which
ranges, classes and repetitions stand for several characters.
-/

namespace Amalgam.Script

inductive SetItem where
  | one (c : Char)
  | range (low high : Char)
  | classNamed (name : String)
  /-- The characters that are equivalent to one. -/
  | alike (c : Char)
  /-- A character several times; nothing says as often as needed. -/
  | repeated (c : Char) (count : Option Nat)
  deriving DecidableEq, Repr

def allBytes : Text :=
  (List.range 256).map Char.ofNat

def classChars (name : String) : Text :=
  allBytes.filter (inClass name)

def SetItem.chars : SetItem → Text
  | one c | alike c => [c]
  | range low high => (List.range (high.toNat + 1 - low.toNat)).map fun n => Char.ofNat (low.toNat + n)
  | classNamed name => classChars name
  | repeated c count => List.replicate (count.getD 0) c

def SetItem.isCase : SetItem → Bool
  | classNamed name => name == "upper" || name == "lower"
  | _ => false

def SetItem.isClass : SetItem → Bool
  | classNamed _ => true
  | _ => false

def SetItem.isOpen : SetItem → Bool
  | repeated _ none => true
  | _ => false

/-! ### Reading -/

/-- A character of the text of a set; escaped ones mean nothing but themselves. -/
structure SetMark where
  char : Char
  escaped : Bool
  deriving DecidableEq, Repr

def setEscape : Char → Char
  | 'a' => Char.ofNat 7
  | 'b' => Char.ofNat 8
  | 'f' => Char.ofNat 12
  | 'n' => '\n'
  | 'r' => '\r'
  | 't' => '\t'
  | 'v' => Char.ofNat 11
  | c => c

/-- The characters of a text with escapes, and warnings; `fuel` bounds their number. -/
def setMarks : Nat → Text → List SetMark × List Text
  | 0, _ => ([], [])
  | _ + 1, [] => ([], [])
  | fuel + 1, '\\' :: rest =>
    match rest with
    | [] =>
      ([⟨'\\', true⟩],
        ["warning: an unescaped backslash at end of string is not portable".toList])
    | c :: later =>
      let digits := (rest.take 3).takeWhile isOctal
      let (mark, after, warnings) : Char × Text × List Text :=
        if digits.isEmpty then (setEscape c, later, [])
        else if numberIn 8 digits ≤ 255 then (Char.ofNat (numberIn 8 digits), rest.drop digits.length, [])
        else
          (Char.ofNat (numberIn 8 (digits.take 2)), rest.drop 2,
            ["warning: the ambiguous octal escape \\".toList ++ digits ++
              " is being\n\tinterpreted as the 2-byte sequence \\0".toList ++ digits.take 2 ++ ", ".toList ++
              digits.drop 2])
      let (marks, more) := setMarks fuel after
      (⟨mark, true⟩ :: marks, warnings ++ more)
  | fuel + 1, c :: rest =>
    let (marks, warnings) := setMarks fuel rest
    (⟨c, false⟩ :: marks, warnings)

def markChars (marks : List SetMark) : Text :=
  marks.map SetMark.char

def SetMark.means (m : SetMark) (c : Char) : Bool :=
  m.char == c && !m.escaped

/-- What stands before the first closing sign, a character and a bracket, and the rest after it. -/
def beforeClosing (sign : Char) : List SetMark → Option (List SetMark × List SetMark)
  | a :: b :: rest =>
    if a.means sign && b.means ']' then some ([], rest)
    else (beforeClosing sign (b :: rest)).map fun (inside, after) => (a :: inside, after)
  | _ => none

/-- A repetition in brackets, after the opening one: the item and the rest.  The error is a number that is
none. -/
def repetitionIn : List SetMark → Except Text (Option (SetItem × List SetMark))
  | c :: star :: rest =>
    if !star.means '*' then .ok none
    else
      let inside := rest.takeWhile fun m => !m.escaped && m.char != ']'
      match rest.drop inside.length with
      | close :: after =>
        if !close.means ']' then .ok none
        else
          let digits := markChars inside
          let base := if digits.head? = some '0' then 8 else 10
          let fits (d : Char) : Bool := if base = 8 then isOctal d else d.isDigit
          if digits.isEmpty then .ok (some (.repeated c.char none, after))
          else if digits.all fits then
            let count := numberIn base digits
            .ok (some (.repeated c.char (if count = 0 then none else some count), after))
          else .error ("invalid repeat count ".toList ++ cited digits ++ " in [c*n] construct".toList)
      | [] => .ok none
  | _ => .ok none

def shownChar (c : Char) : Text :=
  if isUnshown c then '\\' :: octalDigits c.toNat else [c]

def looksRepeated : List SetMark → Bool
  | star :: rest =>
    star.means '*' && ((rest.dropWhile fun m => m.char.isDigit && !m.escaped).head?.any (·.means ']'))
  | [] => false

/-- The items of a set; `fuel` bounds their number. -/
def readItems : Nat → List SetMark → Except Text (List SetItem)
  | 0, _ => .ok []
  | _ + 1, [] => .ok []
  | fuel + 1, a :: rest => do
    let single (_ : Unit) : Except Text (List SetItem) := do
      match rest with
      | dash :: high :: after =>
        if dash.means '-' then
          if high.char < a.char then
            .error ("range-endpoints of '".toList ++ shownChar a.char ++ '-' :: shownChar high.char ++
              "' are in reverse collating sequence order".toList)
          else return .range a.char high.char :: (← readItems fuel after)
        else return .one a.char :: (← readItems fuel rest)
      | _ => return .one a.char :: (← readItems fuel rest)
    let repetition (_ : Unit) : Except Text (List SetItem) := do
      match ← repetitionIn rest with
      | some (item, after) => return item :: (← readItems fuel after)
      | none => single ()
    match a.means '[', rest with
    | true, sign :: later =>
      if rest.length < 2 then single ()
      else if sign.means ':' || sign.means '=' then
        match beforeClosing sign.char later with
        | none => repetition ()
        | some (inside, after) =>
          let name := markChars inside
          if sign.char = ':' then
            if name.isEmpty then .error "missing character class name '[::]'".toList
            else if isClassName name then
              return .classNamed (String.ofList name) :: (← readItems fuel after)
            else if looksRepeated later then repetition ()
            else .error ("invalid character class ".toList ++ cited name)
          else
            match name with
            | [] => .error "missing equivalence class character '[==]'".toList
            | [c] => return .alike c :: (← readItems fuel after)
            | _ =>
              if looksRepeated later then repetition ()
              else .error (name ++ ": equivalence class operand must be a single character".toList)
      else repetition ()
    | _, _ => single ()

def readSet (t : Text) : Except Text (List SetItem) × List Text :=
  let (marks, warnings) := setMarks (t.length + 1) t
  (readItems (marks.length + 1) marks, warnings)

/-! ### Replacements -/

def setChars (items : List SetItem) : Text :=
  items.flatMap SetItem.chars

def complementChars (items : List SetItem) : Text :=
  let set := setChars items
  allBytes.filter (!set.contains ·)

abbrev Replacement := List (Char × Char)

/-- Do the items of classes with a case in the second set stand where such classes stand in the first?  The
sets are followed character by character, but such classes are one step. -/
def aligned : Nat → List SetItem → List SetItem → Bool
  | 0, _, _ => true
  | fuel + 1, source, target =>
    match source.dropWhile (·.chars.isEmpty), target.dropWhile (·.chars.isEmpty) with
    | a :: source, b :: target =>
      if b.isCase then a.isCase && aligned fuel source target
      else
        -- One character of each is left behind; what is left of an item is no class any more.
        let tailOf (item : SetItem) : List SetItem := (item.chars.drop 1).map SetItem.one
        aligned fuel (tailOf a ++ source) (tailOf b ++ target)
    | [], b :: _ => !b.isCase
    | _, [] => true

/-- The replacement of the characters of one set by those of another, where classes with a case are one
step, and what is left of the first set. -/
def pairItems : Nat → List SetItem → List SetItem → Replacement × List SetItem
  | 0, source, _ => ([], source)
  | fuel + 1, source, target =>
    match source.dropWhile (·.chars.isEmpty), target.dropWhile (·.chars.isEmpty) with
    | a :: source, b :: target =>
      if a.isCase && b.isCase then
        let pairs : Replacement := if a = b then [] else
          a.chars.map fun c => (c, if c.isLower then c.toUpper else c.toLower)
        let (later, rest) := pairItems fuel source target
        (pairs ++ later, rest)
      else
        match a.chars, b.chars with
        | c :: cs, d :: ds =>
          let (later, rest) := pairItems fuel (cs.map SetItem.one ++ source) (ds.map SetItem.one ++ target)
          ((c, d) :: later, rest)
        | _, _ => ([], [])
    | source, _ => ([], source)

/-- A set in which what is repeated as often as needed fills it up to a length. -/
def filledUp (length : Nat) (items : List SetItem) : List SetItem :=
  let known := (setChars items).length
  items.map fun
    | .repeated c none => .repeated c (some (length - known))
    | item => item

def replacementOf (complement truncate : Bool) (source target : List SetItem) : Except Text Replacement :=
  let count := if complement then (complementChars source).length else (setChars source).length
  if source.any SetItem.isOpen then .error "the [c*] repeat construct may not appear in string1".toList
  else if 1 < (target.filter SetItem.isOpen).length then
    .error "only one [c*] repeat construct may appear in string2".toList
  else
    let target := filledUp count target
    let isAlike (item : SetItem) : Bool := match item with
      | .alike _ => true
      | _ => false
    if target.any isAlike then
      .error "[=c=] expressions may not appear in string2 when translating".toList
    else if target.any fun item => item.isClass && !item.isCase then
      .error ("when translating, the only character classes that may appear in\n" ++
        "string2 are 'upper' and 'lower'").toList
    else
      let fuel := (setChars source).length + (setChars target).length + 2
      if !complement && target.any SetItem.isCase && !aligned fuel source target then
        .error "misaligned [:upper:] and/or [:lower:] construct".toList
      else
        let (pairs, rest) : Replacement × Text :=
          if complement then
            ((complementChars source).zip (setChars target),
              (complementChars source).drop (setChars target).length)
          else
            let (pairs, rest) := pairItems fuel source target
            (pairs, setChars rest)
        let extended : Except Text Replacement :=
          if rest.isEmpty || truncate then .ok pairs
          else
            match target.getLast?, (setChars target).getLast? with
            | some item, some c =>
              if item.isClass then
                .error ("when translating with string1 longer than string2,\n" ++
                  "the latter string must not end with a character class").toList
              else .ok (pairs ++ rest.map (·, c))
            | _, _ => .error "when not truncating set1, string2 must be non-empty".toList
        if complement && source.any SetItem.isClass then do
          let pairs ← extended
          if 1 < (pairs.map Prod.snd).eraseDups.length then
            .error ("when translating with complemented character classes,\n" ++
              "string2 must map all characters in the domain to one").toList
          else .ok pairs
        else extended

/-! ### The program -/

def memberTable (set : Text) : Array Bool :=
  set.foldl (fun table c => table.setIfInBounds c.toNat true) (Array.replicate 256 false)

def squeeze (set : Text) (t : Text) : Text :=
  let table := memberTable set
  (t.foldl
    (fun kept c =>
      match kept with
      | last :: _ => if last = c ∧ table.getD c.toNat false then kept else c :: kept
      | [] => [c])
    []).reverse

/-- A text with characters replaced; what is said last about a character counts. -/
def replaceChars (r : Replacement) (t : Text) : Text :=
  let table := r.foldl (fun (table : Array Char) (c, d) => table.setIfInBounds c.toNat d)
    ((List.range 256).map Char.ofNat).toArray
  t.map fun c => table.getD c.toNat c

def removeChars (set : Text) (t : Text) : Text :=
  let table := memberTable set
  t.filter fun c => !table.getD c.toNat false

def setsWrong (name text : Text) (hint : Option String) : Run Nat := do
  toolSays name text
  match hint with
  | some hint => sayError (asLine hint.toList)
  | none => pure ()
  seeHelp name
  return 1

def characterEdit (complement delete squeezing truncate : Bool) (source : List SetItem)
    (target? : Option (List SetItem)) : Except Text (Text → Text) :=
  let first := if complement then complementChars source else setChars source
  match delete, target? with
  | true, none =>
    if source.any SetItem.isOpen then .error "the [c*] repeat construct may not appear in string1".toList
    else .ok (removeChars first)
  | false, none =>
    if source.any SetItem.isOpen then .error "the [c*] repeat construct may not appear in string1".toList
    else .ok (squeeze first)
  | true, some target =>
    if source.any SetItem.isOpen then .error "the [c*] repeat construct may not appear in string1".toList
    else if target.any SetItem.isOpen then
      .error "the [c*] construct may appear in string2 only when translating".toList
    else .ok fun t => squeeze (setChars target) (removeChars first t)
  | false, some target =>
    match replacementOf complement truncate source target with
    | .error text => .error text
    | .ok r =>
      let shown := setChars (filledUp first.length target)
      .ok fun t => if squeezing then squeeze shown (replaceChars r t) else replaceChars r t

def trTool : Utility := fun _ name args =>
  let spec : OptionSpec :=
    { flags := "cCdst", leading := true,
      long := [.same "complement" 'c', .same "delete" 'd', .same "squeeze-repeats" 's',
        .same "truncate-set1" 't'] }
  withOptions spec 1 name args fun o => do
    let delete := o.has 'd'
    let squeezing := o.has 's'
    let least := if delete == squeezing then 2 else 1
    let most := if delete && !squeezing then 1 else 2
    match o.operands[most]?, decide (o.operands.length < least) with
    | _, true =>
      match o.operands.getLast? with
      | none => misused name 1 "missing operand".toList
      | some last =>
        setsWrong name ("missing operand after ".toList ++ cited last)
          (if squeezing then "Two strings must be given when both deleting and squeezing repeats."
            else "Two strings must be given when translating.")
    | some extra, _ =>
      setsWrong name ("extra operand ".toList ++ cited extra)
        (if o.operands.length = 2 then
          some "Only one string may be given when deleting without squeezing repeats." else none)
    | none, false =>
      let (source, warnings) := readSet (o.operands.headD [])
      for warning in warnings do
        toolSays name warning
      match source with
      | .error text => toolFails name 1 text
      | .ok source =>
        let target ← match o.operands[1]? with
          | none => pure (.ok none)
          | some t => do
            let (target, warnings) := readSet t
            for warning in warnings do
              toolSays name warning
            pure (target.map some)
        match target with
        | .error text => toolFails name 1 text
        | .ok target =>
          match characterEdit (o.has 'c' || o.has 'C') delete squeezing (o.has 't') source target with
          | .error text => toolFails name 1 text
          | .ok edit =>
            match ← readStandard with
            | .error e => toolFails name 1 (because "read error".toList e)
            | .ok text =>
              say (edit text)
              return 0

end Amalgam.Script
