import Amalgam.Script.Utility
import Amalgam.Script.Utility.Regex.Reader

/-!
# Selecting lines

A search goes through the lines of an input, selects those that match one of its patterns, and shows them,
perhaps with lines around them.
-/

namespace Amalgam.Script

/-! ### What is searched for -/

/-- What is searched for, and how a line has to match. -/
structure Searcher where
  finders : List Finder
  wholeLines : Bool := false
  wholeWords : Bool := false
  inverted : Bool := false

def standsAlone (line : Array Char) (m : Match) : Bool :=
  !isWordBefore line m.start && !isWordAt line m.stop

def longestMatch? (found : List Match) : Option Match :=
  found.foldl
    (fun best m =>
      match best with
      | some (b : Match) => if b.stop < m.stop then some m else some b
      | none => some m)
    none

def Searcher.findOf? (q : Searcher) (line : Array Char) (start : Nat) (f : Finder) : Option Match :=
  if q.wholeLines then
    if start = 0 then (f.matchesAt line 0).find? fun m => m.stop == line.size else none
  else if q.wholeWords then
    (f.starts line start).findSome? fun i =>
      let found := f.matchesAt line i
      let isEmpty := found.all fun m => m.stop = i
      longestMatch? (found.filter fun m => standsAlone line m && (isEmpty || m.stop != i))
  else f.findIn? line start

/-- Where the first match in a line is, from a place on; of several there, the longest. -/
def Searcher.find? (q : Searcher) (line : Array Char) (start : Nat) : Option Match :=
  (q.finders.filterMap (q.findOf? line start)).foldl
    (fun best m =>
      match best with
      | some (b : Match) =>
        if m.start < b.start ∨ (m.start = b.start ∧ b.stop < m.stop) then some m else some b
      | none => some m)
    none

def Searcher.matchesLine (q : Searcher) (line : Array Char) : Bool :=
  q.finders.any fun f => (q.findOf? line 0 f).isSome

/-- Where the parts of a line are that match, from a place on; `fuel` bounds their number. -/
def Searcher.parts (q : Searcher) (line : Array Char) : Nat → Nat → List (Nat × Nat)
  | 0, _ => []
  | fuel + 1, start =>
    match q.find? line start with
    | none => []
    | some m =>
      if m.stop = m.start then
        if line.size ≤ m.stop then [] else q.parts line fuel (m.stop + 1)
      else (m.start, m.stop) :: q.parts line fuel m.stop

/-! ### How lines are shown -/

structure InputLine where
  number : Nat
  offset : Nat
  text : Text

structure LineStyle where
  title : Option Text := none
  /-- The character with the number zero follows the name. -/
  zeroAfterTitle : Bool := false
  numbers : Bool := false
  offsets : Bool := false
  tabbed : Bool := false
  width : Nat := 0
  coloured : Bool := false
  partsOnly : Bool := false
  stop : Char := '\n'

def LineStyle.paint (style : LineStyle) (colour : String) (t : Text) : Text :=
  if style.coloured then
    let escape := Char.ofNat 27
    escape :: '[' :: colour.toList ++ ['m', escape, '[', 'K'] ++ t ++ [escape, '[', 'm', escape, '[', 'K']
  else t

def LineStyle.titleText (style : LineStyle) (mark : Char) : Text :=
  match style.title with
  | none => []
  | some title =>
    style.paint "35" title ++ (if style.zeroAfterTitle then [Char.ofNat 0] else style.paint "36" [mark])

def LineStyle.head (style : LineStyle) (mark : Char) (number offset length : Nat) : Text :=
  let numeral (wanted : Bool) (n : Nat) : Text :=
    if wanted then style.paint "32" (padLeft style.width (ofNat n)) ++ style.paint "36" [mark] else []
  let start := style.titleText mark ++ numeral style.numbers number ++ numeral style.offsets offset
  if style.tabbed && !start.isEmpty && length != 0 then start ++ ['\t'] else start

def matchColour : String := "01;31"

def LineStyle.marked (style : LineStyle) (line : Array Char) (parts : List (Nat × Nat)) : Text :=
  let (text, last) := parts.foldl
    (fun (text, last) (start, stop) =>
      (style.paint matchColour (slice line start stop) :: slice line last start :: text, stop))
    (([], 0) : List Text × Nat)
  (slice line last line.size :: text).reverse.flatten

/-- How a line looks.  `matching` says that there are parts that match. -/
def LineStyle.lineText (style : LineStyle) (q : Searcher) (mark : Char) (matching : Bool) (line : InputLine) :
    Text :=
  let chars := line.text.toArray
  if style.partsOnly then
    if !matching then []
    else
      (q.parts chars (chars.size + 1) 0).flatMap fun (start, stop) =>
        style.head mark line.number (line.offset + start) (stop - start) ++
          style.paint matchColour (slice chars start stop) ++ [style.stop]
  else
    let body := if style.coloured && matching then style.marked chars (q.parts chars (chars.size + 1) 0)
      else line.text
    style.head mark line.number line.offset chars.size ++ body ++ [style.stop]

/-! ### Going through lines -/

/-- Which lines around selected ones are shown. -/
structure Surroundings where
  before : Nat := 0
  after : Nat := 0
  /-- What stands between groups of lines, if something does. -/
  divider : Option Text := none

structure Scan where
  shown : List Text := []
  /-- The last lines that were not shown, the last first. -/
  waiting : List InputLine := []
  /-- How many lines are still shown after a selected one. -/
  owed : Nat := 0
  /-- The number of the line that was shown last. -/
  last : Option Nat := none
  /-- Was anything shown, be it of another input? -/
  used : Bool := false
  count : Nat := 0
  /-- How many characters were looked at up to the last selected line, once no more are wanted. -/
  finished : Option Nat := none

/-- A search: what is searched for, and what is shown of it. -/
structure LineSearch where
  query : Searcher
  style : LineStyle
  context : Surroundings := {}
  limit : Option Nat := none
  silent : Bool := false

/-- Shows a line; `mark` stands after its number. -/
def LineSearch.showLine (s : LineSearch) (scan : Scan) (mark : Char) (line : InputLine) : Scan :=
  let matching := (mark == ':') != s.query.inverted
  { scan with
    shown := s.style.lineText s.query mark matching line :: scan.shown
    last := some line.number
    used := true }

def LineSearch.showWaiting (s : LineSearch) (scan : Scan) (line : InputLine) : Scan :=
  let lines := (scan.waiting.take s.context.before).reverse
  let first := ((lines.head?).getD line).number
  let apart := scan.last ≠ some (first - 1)
  let scan := match s.context.divider with
    | some t =>
      if scan.used && apart then { scan with shown := asLine (s.style.paint "36" t) :: scan.shown } else scan
    | none => scan
  lines.foldl (fun scan line => s.showLine scan '-' line) { scan with waiting := [] }

def LineSearch.step (s : LineSearch) (scan : Scan) (line : InputLine) : Scan :=
  if scan.finished.isSome then
    if scan.owed = 0 then scan
    else { (s.showLine scan '-' line) with owed := scan.owed - 1 }
  else if s.query.matchesLine line.text.toArray != s.query.inverted then
    let scan := { scan with count := scan.count + 1 }
    let finished := if s.limit = some scan.count then some (line.offset + line.text.length + 1) else none
    if s.silent then { scan with finished }
    else
      { (s.showLine (s.showWaiting scan line) ':' line) with owed := s.context.after, finished }
  else if s.silent then scan
  else if scan.owed ≠ 0 then { (s.showLine scan '-' line) with owed := scan.owed - 1 }
  else if s.context.before = 0 then scan
  else { scan with waiting := line :: scan.waiting.take (s.context.before - 1) }

def inputLines (stop : Char) (text : Text) : List InputLine :=
  ((barePieces stop text).foldl
    (fun (lines, number, offset) piece =>
      (⟨number, offset, piece⟩ :: lines, number + 1, offset + piece.length + 1))
    (([], 1, 0) : List InputLine × Nat × Nat)).1.reverse

/-- Goes through the lines of a text.  `used` says that something was shown before. -/
def LineSearch.scan (s : LineSearch) (used : Bool) (text : Text) : Scan :=
  (inputLines s.style.stop text).foldl s.step { used }

/-! ### Operators that repeat nothing -/

/-- The operators in an expression that have nothing to repeat; `start` says that nothing stands before. -/
def leadingOperators : Nat → Bool → Text → List String
  | 0, _, _ => []
  | fuel + 1, start, t =>
    match t with
    | [] => []
    | '\\' :: c :: rest =>
      let isPlace := "bB<>'".toList.contains c || c == backquote
      leadingOperators fuel (start && isPlace) rest
    | '[' :: rest =>
      match bracketAt searchExtended rest with
      | .ok (_, rest) => leadingOperators fuel false rest
      | .error _ => []
    | '(' :: rest | '|' :: rest => leadingOperators fuel true rest
    | '^' :: rest => leadingOperators fuel start rest
    | '*' :: rest => (if start then ["*"] else []) ++ leadingOperators fuel start rest
    | '+' :: rest => (if start then ["+"] else []) ++ leadingOperators fuel start rest
    | '?' :: rest => (if start then ["?"] else []) ++ leadingOperators fuel start rest
    | '{' :: rest =>
      match countAt searchExtended rest with
      | .ok (some (_, _, rest)) =>
        (if start then ["\x7b...\x7d"] else []) ++ leadingOperators fuel false rest
      | _ => leadingOperators fuel false rest
    | _ :: rest => leadingOperators fuel false rest

/-- Is the inside of brackets written like the name of a class?  The text starts after the bracket. -/
def looksLikeClass (t : Text) : Bool :=
  let body := match t with
    | '^' :: rest => rest
    | _ => t
  let inside := body.takeWhile (· != ']')
  inside.head? = some ':' && inside.getLast? = some ':' && inside.any (· != ':') &&
    !inside.contains '[' && !inside.contains '-'

/-- Does an expression hold the name of a class with only one pair of brackets? -/
def misplacedClass : Nat → Text → Bool
  | 0, _ => false
  | fuel + 1, t =>
    match t with
    | [] => false
    | '\\' :: _ :: rest => misplacedClass fuel rest
    | '[' :: rest =>
      looksLikeClass rest ||
        match bracketAt searchExtended rest with
        | .ok (_, rest) => misplacedClass fuel rest
        | .error _ => false
    | _ :: rest => misplacedClass fuel rest

end Amalgam.Script
