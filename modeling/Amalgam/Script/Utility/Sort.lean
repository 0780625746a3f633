import Amalgam.Script.Utility.Order

/-!
# Sorting lines

Lines are compared by keys, which are parts of them, and each key has an order of its own.  Lines whose keys
do not differ are compared as a whole, unless their order is to stay.
-/

namespace Amalgam.Script

structure KeyOrder where
  /-- Blanks at the start of the key are left out. -/
  skipStart : Bool := false
  /-- Blanks before the end of the key are left out. -/
  skipStop : Bool := false
  dictionary : Bool := false
  shownOnly : Bool := false
  foldCase : Bool := false
  numeric : Bool := false
  general : Bool := false
  human : Bool := false
  month : Bool := false
  version : Bool := false
  random : Bool := false
  reverse : Bool := false
  deriving DecidableEq, Repr

/-- The order with what a letter says; `start` and `stop` say for which end of the key blanks are left out. -/
def KeyOrder.letter? (k : KeyOrder) (start stop : Bool) : Char → Option KeyOrder
  | 'b' => some { k with skipStart := k.skipStart || start, skipStop := k.skipStop || stop }
  | 'd' => some { k with dictionary := true, shownOnly := false }
  | 'f' => some { k with foldCase := true }
  | 'g' => some { k with general := true }
  | 'h' => some { k with human := true }
  | 'i' => some (if k.dictionary then k else { k with shownOnly := true })
  | 'M' => some { k with month := true }
  | 'n' => some { k with numeric := true }
  | 'R' => some { k with random := true }
  | 'r' => some { k with reverse := true }
  | 'V' => some { k with version := true }
  | _ => none

def KeyOrder.conflict? (k : KeyOrder) : Option Text :=
  let kinds := [k.numeric, k.general, k.human, k.month, k.version || k.random || k.dictionary || k.shownOnly]
  if (kinds.filter id).length ≤ 1 then none
  else
    some (([(k.dictionary, 'd'), (k.foldCase, 'f'), (k.general, 'g'), (k.human, 'h'), (k.shownOnly, 'i'),
      (k.month, 'M'), (k.numeric, 'n'), (k.random, 'R'), (k.version, 'V')].filter Prod.fst).map Prod.snd)

def KeyOrder.counted (k : KeyOrder) (t : Text) : Text :=
  let t := if k.dictionary then t.filter fun c => c.isAlphanum || isGap c
    else if k.shownOnly then t.filter (!isUnshown ·) else t
  if k.foldCase then t.map Char.toUpper else t

def KeyOrder.order (k : KeyOrder) (a b : Text) : Ordering :=
  let found :=
    if k.numeric then numericOrder a b
    else if k.general then generalOrder a b
    else if k.human then humanOrder a b
    else if k.month then monthOrder a b
    else if k.version then versionOrder (k.counted a) (k.counted b)
    else textOrder (k.counted a) (k.counted b)
  if k.reverse then flipped found else found

/-- A key: where it starts and ends in a line, and how it is compared.  Fields and characters are counted
from zero. -/
structure SortKey where
  startField : Nat := 0
  startChar : Nat := 0
  /-- The field that the key ends in, if it does not go up to the end of the line. -/
  stopField : Option Nat := none
  /-- How many characters of that field belong to the key; zero stands for all. -/
  stopChar : Nat := 0
  order : KeyOrder := {}
  deriving DecidableEq, Repr

/-- Where the field with a number starts: how many characters stand before it.  Fields end at a separator, or
before blanks. -/
def fieldStart (separator : Option Char) : Nat → Nat → Text → Nat
  | 0, at0, _ => at0
  | n + 1, at0, t =>
    match separator with
    | some c =>
      match t.dropWhile (· != c) with
      | [] => at0 + t.length
      | _ :: rest => fieldStart separator n (at0 + (t.length - rest.length)) rest
    | none =>
      let rest := (t.dropWhile isGap).dropWhile (!isGap ·)
      fieldStart separator n (at0 + (t.length - rest.length)) rest

def SortKey.part (separator : Option Char) (k : SortKey) (line : Text) : Text :=
  let blanksFrom (i : Nat) : Nat := ((line.drop i).takeWhile isGap).length
  let start := fieldStart separator k.startField 0 line
  let start := if k.order.skipStart then start + blanksFrom start else start
  let start := min line.length (start + k.startChar)
  let stop := match k.stopField with
    | none => line.length
    | some field =>
      if k.stopChar = 0 then
        let next := fieldStart separator (field + 1) 0 line
        -- The separator after the field does not belong to it.
        match separator with
        | some c =>
          let last := fieldStart separator field 0 line
          last + ((line.drop last).takeWhile (· != c)).length
        | none => next
      else
        let last := fieldStart separator field 0 line
        let last := if k.order.skipStop then last + blanksFrom last else last
        min line.length (last + k.stopChar)
  (line.drop start).take (stop - start)

structure SortPlan where
  keys : List SortKey := []
  /-- What is said for all keys that say nothing themselves. -/
  usual : KeyOrder := {}
  separator : Option Char := none
  /-- Lines with the same keys stay in their order. -/
  stable : Bool := false
  unique : Bool := false
  stop : Char := '\n'
  check : Option Bool := none
  merge : Bool := false
  output : Option Text := none

def SortPlan.allKeys (p : SortPlan) : List SortKey :=
  match p.keys with
  | [] => if { p.usual with reverse := false } = {} then [] else [{ order := p.usual }]
  | keys => keys.map fun k => if k.order = {} then { k with order := p.usual } else k

abbrev Keyed := Text × List Text

def SortPlan.keyed (p : SortPlan) (line : Text) : Keyed :=
  (line, p.allKeys.map fun k => k.part p.separator line)

def keysOrder : List SortKey → List Text → List Text → Ordering
  | k :: keys, a :: as, b :: bs => thenOrder (k.order.order a b) fun _ => keysOrder keys as bs
  | _, _, _ => .eq

def SortPlan.order (p : SortPlan) (keys : List SortKey) (a b : Keyed) : Ordering :=
  let whole (_ : Unit) : Ordering :=
    let found := textOrder a.1 b.1
    if p.usual.reverse then flipped found else found
  if keys.isEmpty then whole ()
  else
    thenOrder (keysOrder keys a.2 b.2) fun _ => if p.unique || p.stable then .eq else whole ()

/-! ### Options -/

/-- A count in the text of a key, and the rest; one that is far too large means more than there is. -/
def fieldCount (what : String) (t : Text) : Except Text (Nat × Text) :=
  match t.takeWhile Char.isDigit with
  | [] => .error (what.toList ++ ": invalid count at start of ".toList ++ cited t)
  | digits => .ok (digitsValue digits, t.drop digits.length)

/-- The letters at the start of a text that say how a key is compared, and the rest. -/
def keyLetters (start stop : Bool) : KeyOrder → Text → KeyOrder × Text
  | k, [] => (k, [])
  | k, c :: rest =>
    match k.letter? start stop c with
    | some k => keyLetters start stop k rest
    | none => (k, c :: rest)

def readKey (t : Text) : Except Text SortKey := do
  let refuse (why : String) : Except Text SortKey :=
    .error (why.toList ++ ": invalid field specification ".toList ++ cited t)
  let (field, rest) ← fieldCount "invalid number at field start" t
  if field = 0 then refuse "field number is zero"
  else
    let (char, rest) ← match rest with
      | '.' :: rest => fieldCount "invalid number after '.'" rest
      | _ => pure (1, rest)
    if char = 0 then refuse "character offset is zero"
    else
      let (order, rest) := keyLetters true false {} rest
      let key : SortKey := { startField := field - 1, startChar := char - 1, order }
      match rest with
      | [] => return key
      | ',' :: rest =>
        let (field, rest) ← fieldCount "invalid number after ','" rest
        if field = 0 then refuse "field number is zero"
        else
          let (char, rest) ← match rest with
            | '.' :: rest => fieldCount "invalid number after '.'" rest
            | _ => pure (0, rest)
          let (order, rest) := keyLetters false true order rest
          if rest.isEmpty then
            return { key with stopField := some (field - 1), stopChar := char, order }
          else refuse "stray character in field spec"
      | _ => refuse "stray character in field spec"

/-- A position in the old way of describing keys: fields to skip, characters to skip, letters. -/
def oldPosition? (t : Text) : Option (Nat × Nat × Text) :=
  let digits := t.takeWhile Char.isDigit
  if digits.isEmpty then none
  else
    match t.drop digits.length with
    | '.' :: rest =>
      let more := rest.takeWhile Char.isDigit
      some (digitsValue digits, digitsValue more, rest.drop more.length)
    | rest => some (digitsValue digits, 0, rest)

/-- Arguments in which keys that are described in the old way are described in the new way; `fuel` bounds their
number. -/
def modernKeys : Nat → List Text → List Text
  | 0, args => args
  | _ + 1, ['-', '-'] :: rest => ['-', '-'] :: rest
  | fuel + 1, ('+' :: start) :: rest =>
    match oldPosition? start with
    | none => ('+' :: start) :: modernKeys fuel rest
    | some (field, char, letters) =>
      let first := ofNat (field + 1) ++ '.' :: ofNat (char + 1) ++ letters
      match rest with
      | ('-' :: stop) :: later =>
        match oldPosition? stop with
        | some (field, char, letters) =>
          let last := if char = 0 then ofNat field else ofNat (field + 1) ++ '.' :: ofNat char
          ['-', 'k'] :: (first ++ ',' :: last ++ letters) :: modernKeys fuel later
        | none => ['-', 'k'] :: first :: modernKeys fuel rest
      | _ => ['-', 'k'] :: first :: modernKeys fuel rest
  | fuel + 1, arg :: rest => arg :: modernKeys fuel rest
  | _ + 1, [] => []

def orderWords : List (List String × Char) :=
  [(["general-numeric"], 'g'), (["human-numeric"], 'h'), (["month"], 'M'), (["numeric"], 'n'),
    (["random"], 'R'), (["version"], 'V')]

/-- What an option says about sorting, or a message and the status that it gives. -/
def sortSetting (p : SortPlan) (key : String) (value : Text) : Except (Text × Nat) SortPlan :=
  let fail (text : Text) : Except (Text × Nat) SortPlan := .error (text, 2)
  let checking (quiet : Bool) : Except (Text × Nat) SortPlan :=
    if p.check.any (· != quiet) then fail "options '-cC' are incompatible".toList
    else .ok { p with check := some quiet }
  match key with
  | "k" =>
    match readKey value with
    | .ok k => .ok { p with keys := p.keys ++ [k] }
    | .error text => fail text
  | "t" =>
    let separator : Except Text Char := match value with
      | [] => .error "empty tab".toList
      | [c] => .ok c
      | ['\\', '0'] => .ok (Char.ofNat 0)
      | _ => .error ("multi-character tab ".toList ++ cited value)
    match separator with
    | .error text => fail text
    | .ok c => if p.separator.any (· != c) then fail "incompatible tabs".toList
      else .ok { p with separator := some c }
  | "o" =>
    if p.output.any (· != value) then fail "multiple output files specified".toList
    else .ok { p with output := some value }
  | "c" => checking false
  | "C" => checking true
  | "check" =>
    if value.isEmpty then checking false
    else
      match choiceOf "--check" [(["quiet", "silent"], true), (["diagnose-first"], false)] value with
      | .ok quiet => checking quiet
      | .error text => .error (text, 1)
  | "sort" =>
    match choiceOf "--sort" orderWords value with
    | .ok letter => .ok { p with usual := (p.usual.letter? true true letter).getD p.usual }
    | .error text => .error (text, 1)
  | "S" =>
    match sizeOf "EgGkKmMPtTYZ%b" value with
    | .ok _ => .ok p
    | .error _ => fail ("invalid -S argument ".toList ++ cited value)
  | "parallel" =>
    match sizeOf "" value with
    | .ok 0 => fail "number in parallel must be nonzero".toList
    | .ok _ => .ok p
    | .error _ => fail ("invalid --parallel argument ".toList ++ cited value)
  | "s" => .ok { p with stable := true }
  | "u" => .ok { p with unique := true }
  | "z" => .ok { p with stop := lineEnd true }
  | "m" => .ok { p with merge := true }
  | _ =>
    match key.toList with
    | [c] => .ok { p with usual := (p.usual.letter? true true c).getD p.usual }
    | _ => .ok p

def sortOptions : OptionSpec :=
  { flags := "bcCdfghiMmnRrsuVz", valued := "koStT",
    long := [.same "ignore-leading-blanks" 'b', .attached "check", .valued "compress-program",
      .flag "debug", .same "dictionary-order" 'd', .same "ignore-case" 'f', .valued "files0-from",
      .same "general-numeric-sort" 'g', .same "ignore-nonprinting" 'i', .same "key" 'k', .same "merge" 'm',
      .same "month-sort" 'M', .same "numeric-sort" 'n', .same "human-numeric-sort" 'h',
      .same "version-sort" 'V', .same "random-sort" 'R', .valued "random-source", .valued "sort",
      .same "output" 'o', .same "reverse" 'r', .same "stable" 's', .valued "batch-size",
      .same "buffer-size" 'S', .same "field-separator" 't', .same "temporary-directory" 'T',
      .same "unique" 'u', .same "zero-terminated" 'z', .valued "parallel"] }

/-! ### The program -/

def withoutRepeats (same : Keyed → Keyed → Bool) (lines : List Keyed) : List Keyed :=
  (lines.foldl
    (fun kept line =>
      match kept with
      | last :: _ => if same last line then kept else line :: kept
      | [] => [line])
    []).reverse

/-- Takes the least of the first lines of lists, as long as there is one; `fuel` bounds their number. -/
def mergeLists (le : Keyed → Keyed → Bool) : Nat → List Keyed → List (List Keyed) → List Keyed
  | 0, done, _ => done.reverse
  | fuel + 1, done, lists =>
    let lists := lists.filter (!·.isEmpty)
    let best := lists.zipIdx.foldl
      (fun found (list, i) =>
        match found, list with
        | none, line :: _ => some (line, i)
        | some (other, j), line :: _ => if le other line then some (other, j) else some (line, i)
        | found, [] => found)
      (none : Option (Keyed × Nat))
    match best with
    | none => done.reverse
    | some (line, i) =>
      mergeLists le fuel (line :: done)
        (lists.zipIdx.map fun (list, j) => if i = j then list.drop 1 else list)

def disorder? (inOrder : Keyed → Keyed → Bool) : Nat → List Keyed → Option (Nat × Text)
  | n, a :: b :: rest => if inOrder a b then disorder? inOrder (n + 1) (b :: rest) else some (n + 1, b.1)
  | _, _ => none

def sortInputs (name : Text) (operands : List Text) : Run (Except Nat (List Text)) := do
  let tree := (← get).tree
  let operands := orStandard operands
  let missing := operands.findSome? fun path =>
    if path = ['-'] || (descriptorNamed? tree path).isSome then none
    else match tree.locate (toPath path) with
      | .ok _ => none
      | .error e => some (path, e)
  match missing with
  | some (path, e) => return .error (← toolFails name 2 ("cannot read: ".toList ++ because (shownName path) e))
  | none =>
    operands.foldlM
      (fun texts path => do
        match texts with
        | .error status => return .error status
        | .ok texts =>
          match ← readOperand path with
          | .ok text => return .ok (texts ++ [text])
          | .error e =>
            let what := if e = .badDescriptor then "stat failed: " else "read failed: "
            return .error (← toolFails name 2 (what.toList ++ because (shownName path) e)))
      (.ok [] : Except Nat (List Text))

def sortTool : Utility := fun _ name args =>
  withChecked (misused name 2) sortOptions name (modernKeys (args.length + 1) args)
    (fun o => do
      match o.given.foldlM (fun p (key, value) => sortSetting p key value) ({} : SortPlan) with
      | .ok p => return .ok p
      | .error (text, 1) => return .error (← misused name 1 text)
      | .error (text, status) => return .error (← toolFails name status text))
    fun p o => do
      let conflict := (p.allKeys.map SortKey.order ++ [p.usual]).findSome? KeyOrder.conflict?
      if let some letters := conflict then
        return ← toolFails name 2 ("options '-".toList ++ letters ++ "' are incompatible".toList)
      if let some quiet := p.check then
        if let some extra := o.operands[1]? then
          return ← toolFails name 2 ("extra operand ".toList ++ cited extra ++
            (if quiet then " not allowed with -C" else " not allowed with -c").toList)
        if p.output.isSome then
          return ← toolFails name 2
            (if quiet then "options '-Co' are incompatible" else "options '-co' are incompatible").toList
      match ← sortInputs name o.operands with
      | .error status => return status
      | .ok texts =>
        let keys := p.allKeys
        let lists := texts.map fun text => (barePieces p.stop text).map p.keyed
        let le (a b : Keyed) : Bool := p.order keys a b != .gt
        match p.check with
        | some quiet =>
          let inOrder (a b : Keyed) : Bool := if p.unique then p.order keys a b == .lt else le a b
          match disorder? inOrder 1 lists.flatten with
          | none => return 0
          | some (n, line) =>
            if quiet then return 1
            toolFails name 1 (shownName (o.operands.headD ['-']) ++ ':' :: ofNat n ++
              ": disorder: ".toList ++ line)
        | none =>
          let sorted := if p.merge then mergeLists le (lists.flatten.length + 1) [] lists
            else lists.flatten.mergeSort le
          let lines := if p.unique then withoutRepeats (fun a b => p.order keys a b == .eq) sorted else sorted
          let shown := lines.flatMap fun (line, _) => line ++ [p.stop]
          match p.output with
          | none =>
            say shown
            return 0
          | some path =>
            match ← openFile path .write with
            | .ok id =>
              writeChannel id shown
              return 0
            | .error e => toolFails name 2 ("open failed: ".toList ++ because (shownName path) e)

end Amalgam.Script
