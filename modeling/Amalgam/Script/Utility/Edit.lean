import Amalgam.Script.Utility
import Amalgam.Script.Utility.Regex.Reader

/-!
# Editing steps

A list of steps that are taken for every line of a text.  A step has addresses, which say for which lines it
is, and does something to the line, to the text that is kept beside it, or to the order of the steps.
-/

namespace Amalgam.Script

/-! ### Steps -/

/-- An expression that lines are searched for.  If none is written, the one that was used last is meant. -/
structure Search where
  pattern : Option Regex := none
  ignoreCase : Bool := false
  multiline : Bool := false
  deriving DecidableEq, Repr

inductive Address where
  | line (number : Nat)
  /-- Every line at a distance from a first one. -/
  | every (first distance : Nat)
  | last
  | matching (search : Search)
  deriving DecidableEq, Repr

inductive Limit where
  | upTo (address : Address)
  | further (count : Nat)
  /-- At the next line whose number is a multiple. -/
  | multiple (number : Nat)
  deriving DecidableEq, Repr

structure Selection where
  first : Option Address := none
  limit : Option Limit := none
  negated : Bool := false
  deriving DecidableEq, Repr

/-- Letters that are made large or small. -/
inductive Casing where
  | upper
  | lower
  deriving DecidableEq, Repr

/-- A part of what stands in for a match. -/
inductive Stand where
  | char (c : Char)
  /-- What a group matched; the group zero is the whole match. -/
  | group (index : Nat)
  | casing (casing : Option Casing)
  | nextCase (casing : Casing)
  deriving DecidableEq, Repr

structure Substitution where
  search : Search
  stands : List Stand
  /-- The first match that is replaced, if it is not the first one of all. -/
  nth : Option Nat := none
  all : Bool := false
  shows : Bool := false
  /-- The file to which the line is written after a replacement. -/
  target : Option Text := none
  /-- After a replacement, the line is run as a command, and gives way to what that shows. -/
  runs : Bool := false
  deriving DecidableEq, Repr

inductive JumpKind where
  | always
  | ifReplaced
  | unlessReplaced
  deriving DecidableEq, Repr

inductive Edit where
  | openBlock
  | closeBlock
  | label (name : Text)
  /-- Goes on after a label, or at the end if no label is named. -/
  | jump (kind : JumpKind) (name : Text)
  | substitute (s : Substitution)
  | exchange (source target : Text)
  | delete
  | deleteFirst
  | print
  | printFirst
  | quit (status : Nat)
  | quitSilently (status : Nat)
  | number
  | append (text : Text)
  | insert (text : Text)
  | change (text : Text)
  | insertFile (path : Text)
  | insertLine (path : Text)
  | writeLine (path : Text)
  | writeFirst (path : Text)
  | next
  | nextAppended
  | hold
  | holdAppended
  | recall
  | recallAppended
  | swap
  | clear
  | display (width : Option Nat)
  | fileName
  /-- Runs a command and shows what it shows; an empty one stands for the line, which gives way to that. -/
  | execute (command : Text)
  | nothing
  deriving DecidableEq, Repr

/-- A step with the lines that it is for. -/
structure EditStep where
  selection : Selection := {}
  edit : Edit
  deriving DecidableEq, Repr

/-! ### Reading -/

structure EditStyle where
  extended : Bool := false
  /-- Steps may neither read nor write files, and not run commands. -/
  confined : Bool := false

/-- What is wrong with steps, and what comes after it. -/
structure EditFault where
  text : String
  rest : Text

/-- The inside of brackets after the opening one and a sign of negation, and the rest after the closing
one. -/
def bracketInside (body : Text) : Option (Text × Text) :=
  let rec go : Nat → Bool → Text → Text → Option (Text × Text)
    | 0, _, _, _ => none
    | _ + 1, _, _, [] => none
    | fuel + 1, first, before, c :: rest =>
      if c == ']' && !first then some (before.reverse, rest)
      else
        match c, rest with
        | '[', ':' :: later =>
          let name := later.takeWhile Char.isAlpha
          match later.dropWhile Char.isAlpha with
          | ':' :: ']' :: after =>
            go fuel false ((['[', ':'] ++ name ++ [':', ']']).reverse ++ before) after
          | _ => go fuel false (c :: before) rest
        | _, _ => go fuel false (c :: before) rest
  go (body.length + 1) true [] body

/-- A text with the ends of lines in place of the escapes that stand for them. -/
def plainLineEnds : Text → Text
  | '\\' :: 'n' :: rest => '\n' :: plainLineEnds rest
  | c :: rest => c :: plainLineEnds rest
  | [] => []

/-- The text up to a mark that is not escaped, and what comes after it.  In an expression, a mark between
brackets does not count, and an escaped `n` is the end of a line. -/
def upTo (inRegex : Bool) (mark : Char) : Nat → Text → Option (Text × Text)
  | 0, _ => none
  | _ + 1, [] => none
  | fuel + 1, '\\' :: c :: rest =>
    (upTo inRegex mark fuel rest).map fun (t, later) =>
      (if c = mark ∧ (inRegex ∨ c ≠ '&') then c :: t
       else if inRegex ∧ c = 'n' then '\n' :: t
       else '\\' :: c :: t, later)
  | fuel + 1, c :: rest =>
    if c = mark then some ([], rest)
    else if inRegex ∧ c = '\n' then none
    else if inRegex ∧ c = '[' then
      let (sign, body) := match rest with
        | '^' :: body => (['^'], body)
        | _ => ([], rest)
      match bracketInside body with
      | some (inner, after) =>
        (upTo inRegex mark fuel after).map fun (t, later) =>
          ('[' :: sign ++ plainLineEnds inner ++ ']' :: t, later)
      | none => none
    else (upTo inRegex mark fuel rest).map fun (t, later) => (c :: t, later)

/-- The character that an escape with a number in it stands for, and the rest. -/
def numberedChar? (t : Text) : Option (Char × Text) :=
  let read (base : Nat) (count : Nat) (ok : Char → Bool) (rest : Text) : Option (Char × Text) :=
    let digits := (rest.take count).takeWhile ok
    if digits.isEmpty then none
    else some (Char.ofNat (numberIn base digits % 256), rest.drop digits.length)
  match t with
  | 'x' :: rest => read 16 2 (inClass "xdigit") rest
  | 'd' :: rest => read 10 3 Char.isDigit rest
  | 'o' :: rest => read 8 3 (fun c => '0' ≤ c && c ≤ '7') rest
  | _ => none

def controlChar? : Char → Option Char
  | 'a' => some (Char.ofNat 7)
  | 'f' => some (Char.ofNat 12)
  | 'r' => some '\r'
  | 't' => some '\t'
  | 'v' => some (Char.ofNat 11)
  | _ => none

/-- An expression in which escapes for control characters are replaced by these. -/
def plainControls : Nat → Text → Text
  | 0, t => t
  | _ + 1, [] => []
  | fuel + 1, '\\' :: c :: rest =>
    match controlChar? c, numberedChar? (c :: rest) with
    | some d, _ => d :: plainControls fuel rest
    | none, some (d, rest) =>
      (if d.isAlphanum || isSpace d then [d] else ['\\', d]) ++ plainControls fuel rest
    | none, none => '\\' :: c :: plainControls fuel rest
  | fuel + 1, c :: rest => c :: plainControls fuel rest

def readStands : Nat → Text → List Stand
  | 0, _ => []
  | _ + 1, [] => []
  | fuel + 1, '\\' :: c :: rest =>
    match controlChar? c, numberedChar? (c :: rest) with
    | some d, _ => .char d :: readStands fuel rest
    | none, some (d, rest) => .char d :: readStands fuel rest
    | none, none =>
      let stand : Stand := match c with
        | 'n' => .char '\n'
        | 'U' => .casing (some .upper)
        | 'L' => .casing (some .lower)
        | 'E' => .casing none
        | 'u' => .nextCase .upper
        | 'l' => .nextCase .lower
        | c => if c.isDigit then .group (c.toNat - 48) else .char c
      stand :: readStands fuel rest
  | fuel + 1, '&' :: rest => .group 0 :: readStands fuel rest
  | fuel + 1, c :: rest => .char c :: readStands fuel rest

def endsStep (t : Text) : Bool :=
  match t.dropWhile isGap with
  | [] => true
  | c :: _ => c == ';' || c == '\n' || c == '}' || c == '#'

/-- The expression that a text writes; `modes` says how it is matched. -/
def readSearch (extended : Bool) (modes : Search) (rest pattern : Text) : Except EditFault Search :=
  if pattern.isEmpty then
    if modes.ignoreCase || modes.multiline then
      .error ⟨"cannot specify modifiers on empty regexp", rest⟩
    else .ok modes
  else
    match readStyled (if extended then editExtended else editBasic)
        (plainControls (pattern.length + 1) pattern) with
    | .ok r => .ok { modes with pattern := some r }
    | .error fault => .error ⟨fault.text, rest⟩

/-- An expression between marks, after the first mark, and letters that say how it is matched. -/
def searchAddress (extended : Bool) (mark : Char) (t : Text) : Except EditFault (Address × Text) :=
  match upTo true mark (t.length + 1) t with
  | none => .error ⟨"unterminated address regex", []⟩
  | some (pattern, rest) =>
    let flags := rest.takeWhile fun c => c == 'I' || c == 'M'
    let rest := rest.drop flags.length
    let modes : Search := { ignoreCase := flags.contains 'I', multiline := flags.contains 'M' }
    (readSearch extended modes rest pattern).map fun s => (.matching s, rest)

def addressAt (extended : Bool) (t : Text) : Except EditFault (Option Address × Text) :=
  match t with
  | '$' :: rest => .ok (some .last, rest)
  | '/' :: rest => (searchAddress extended '/' rest).map fun (a, rest) => (some a, rest)
  | ['\\'] => .error ⟨"unterminated address regex", []⟩
  | '\\' :: mark :: rest => (searchAddress extended mark rest).map fun (a, rest) => (some a, rest)
  | _ =>
    let digits := t.takeWhile Char.isDigit
    if digits.isEmpty then .ok (none, t)
    else
      let first := digitsValue digits
      match (t.drop digits.length).dropWhile isGap with
      | '~' :: rest =>
        let rest := rest.dropWhile isGap
        let distance := rest.takeWhile Char.isDigit
        .ok (some (.every first (digitsValue distance)), rest.drop distance.length)
      | _ => .ok (some (.line first), t.drop digits.length)

def limitAt (extended : Bool) (t : Text) : Except EditFault (Limit × Text) :=
  let counted (rest : Text) : Nat × Text :=
    let digits := rest.takeWhile Char.isDigit
    (digitsValue digits, rest.drop digits.length)
  match t with
  | '+' :: rest => .ok (.further (counted rest).1, (counted rest).2)
  | '~' :: rest => .ok (.multiple (counted rest).1, (counted rest).2)
  | _ =>
    match addressAt extended t with
    | .error fault => .error fault
    | .ok (some a, rest) => .ok (.upTo a, rest)
    | .ok (none, rest) => .error ⟨"unexpected `,'", rest.drop 1⟩

def selectionAt (extended : Bool) (t : Text) : Except EditFault (Selection × Text) := do
  let (first, t) ← addressAt extended t
  let (limit, t) ← match t.dropWhile isGap, first with
    | ',' :: rest, some _ => do
      let (limit, rest) ← limitAt extended (rest.dropWhile isGap)
      pure (some limit, rest)
    | _, _ => pure (none, t)
  let startsAtSearch := match limit with
    | some (.upTo (.matching _)) => true
    | _ => false
  let t := t.dropWhile isGap
  if first = some (.line 0) ∧ !startsAtSearch then
    throw ⟨"invalid usage of line address 0", t.drop 1⟩
  match t with
  | '!' :: rest =>
    let rest := rest.dropWhile isGap
    if rest.head? = some '!' then throw ⟨"multiple `!'s", rest.drop 1⟩
    return (⟨first, limit, true⟩, rest)
  | _ => return (⟨first, limit, false⟩, t)

/-- The character that an escape stands for, after the backslash, and the rest. -/
def charAfterBackslash (c : Char) (rest : Text) : Char × Text :=
  match c, controlChar? c, numberedChar? (c :: rest) with
  | 'n', _, _ => ('\n', rest)
  | 'c', _, _ =>
    match rest with
    | letter :: rest => (Char.ofNat (letter.toUpper.toNat ^^^ 64), rest)
    | [] => ('c', [])
  | _, some d, _ => (d, rest)
  | _, none, some found => found
  | _, none, none => (c, rest)

/-- Lines of a text that is added, with their ends, up to the end of a line that does not end in a backslash.
A backslash before another character is left out. -/
def addedLines : Nat → Text → Text × Text
  | 0, t => (t, [])
  | _ + 1, [] => (['\n'], [])
  | fuel + 1, '\\' :: c :: rest =>
    let (d, rest) := charAfterBackslash c rest
    let (text, later) := addedLines fuel rest
    (d :: text, later)
  | fuel + 1, c :: rest =>
    if c = '\n' then (['\n'], rest)
    else if c = '\\' then addedLines fuel rest
    else
      let (text, later) := addedLines fuel rest
      (c :: text, later)

def addedText (t : Text) : Except EditFault (Text × Text) :=
  let read (t : Text) : Text × Text := addedLines (t.length + 1) t
  match t.dropWhile isGap with
  | [] => .error ⟨"expected \\ after `a', `c' or `i'", []⟩
  | ['\\'] => .ok ([], [])
  | '\\' :: rest =>
    match rest.dropWhile isGap with
    | '\n' :: after => .ok (read after)
    | _ => .ok (read rest)
  | rest => .ok (read rest)

def restOfLine (t : Text) : Text × Text :=
  let t := t.dropWhile isGap
  (t.takeWhile (· != '\n'), t.dropWhile (· != '\n'))

def labelAt (t : Text) : Text × Text :=
  let t := t.dropWhile isGap
  let name := t.takeWhile fun c => !isSpace c && c != ';' && c != '}' && c != '#'
  (name, t.drop name.length)

/-- A step is not allowed where files and commands are out of reach. -/
def confinedFault (rest : Text) : EditFault :=
  ⟨"e/r/w commands disabled in sandbox mode", rest⟩

def substitutionFlags (style : EditStyle) :
    Nat → Substitution → Text → Except EditFault (Substitution × Text)
  | 0, s, t => .ok (s, t)
  | fuel + 1, s, t =>
    match t with
    | 'g' :: rest =>
      if s.all then .error ⟨"multiple `g' options to `s' command", rest⟩
      else substitutionFlags style fuel { s with all := true } rest
    | 'p' :: rest =>
      if s.shows then .error ⟨"multiple `p' options to `s' command", rest⟩
      else substitutionFlags style fuel { s with shows := true } rest
    | 'i' :: rest | 'I' :: rest =>
      substitutionFlags style fuel { s with search := { s.search with ignoreCase := true } } rest
    | 'm' :: rest | 'M' :: rest =>
      substitutionFlags style fuel { s with search := { s.search with multiline := true } } rest
    | ' ' :: rest => substitutionFlags style fuel s rest
    | 'e' :: rest =>
      if style.confined then .error (confinedFault rest)
      else substitutionFlags style fuel { s with runs := true } rest
    | 'w' :: rest =>
      if style.confined then .error (confinedFault rest)
      else if (restOfLine rest).1.isEmpty then .error ⟨"missing filename in r/R/w/W commands", rest⟩
      else .ok ({ s with target := some (restOfLine rest).1 }, (restOfLine rest).2)
    | _ =>
      let digits := t.takeWhile Char.isDigit
      if !digits.isEmpty then
        if s.nth.isSome then .error ⟨"multiple number options to `s' command", t.drop digits.length⟩
        else if digitsValue digits = 0 then
          .error ⟨"number option to `s' command may not be zero", t.drop digits.length⟩
        else substitutionFlags style fuel { s with nth := some (digitsValue digits) } (t.drop digits.length)
      else if endsStep t then .ok (s, t)
      else .error ⟨"unknown option to `s'", t.drop 1⟩

def greatestGroup (stands : List Stand) : Nat :=
  stands.foldl
    (fun n stand =>
      match stand with
      | .group index => max n index
      | _ => n)
    0

def substitutionAt (style : EditStyle) (t : Text) : Except EditFault (Edit × Text) := do
  let unterminated : EditFault := ⟨"unterminated `s' command", []⟩
  match t with
  | [] => throw unterminated
  | mark :: rest =>
    match upTo true mark (rest.length + 1) rest with
    | none => throw unterminated
    | some (pattern, rest) =>
      match upTo false mark (rest.length + 1) rest with
      | none => throw unterminated
      | some (text, rest) =>
        let stands := readStands (text.length + 1) text
        let bare : Substitution := { search := {}, stands }
        let (s, rest) ← substitutionFlags style (rest.length + 1) bare rest
        let search ← readSearch style.extended s.search (rest.drop 1) pattern
        let groups := ((search.pattern.map Regex.groupCount).getD 9)
        if groups < greatestGroup stands then
          let index := Nat.repr (greatestGroup stands)
          throw ⟨"invalid reference \\" ++ index ++ " on `s' command's RHS", rest.drop 1⟩
        return (.substitute { s with search }, rest)

def exchangeChars : Nat → Text → Text
  | 0, t => t
  | fuel + 1, '\\' :: c :: rest =>
    let (d, rest) := charAfterBackslash c rest
    d :: exchangeChars fuel rest
  | fuel + 1, c :: rest => c :: exchangeChars fuel rest
  | _ + 1, [] => []

def exchangeAt (t : Text) : Except EditFault (Edit × Text) :=
  match t with
  | [] => .error ⟨"unterminated `y' command", []⟩
  | mark :: rest =>
    let both := (upTo false mark (rest.length + 1) rest).bind fun (a, rest) =>
      (upTo false mark (rest.length + 1) rest).map fun (b, rest) =>
        (exchangeChars a.length a, exchangeChars b.length b, rest)
    match both with
    | none => .error ⟨"unterminated `y' command", []⟩
    | some (a, b, rest) =>
      if a.length = b.length then .ok (.exchange a b, rest)
      else .error ⟨"strings for `y' command are different lengths", rest⟩

def countAfter (t : Text) : Option Nat × Text :=
  let t := t.dropWhile isGap
  (natOf? (t.takeWhile Char.isDigit), t.dropWhile Char.isDigit)

def plainEdit? : Char → Option Edit
  | '{' => some .openBlock
  | '}' => some .closeBlock
  | '=' => some .number
  | 'd' => some .delete
  | 'D' => some .deleteFirst
  | 'F' => some .fileName
  | 'g' => some .recall
  | 'G' => some .recallAppended
  | 'h' => some .hold
  | 'H' => some .holdAppended
  | 'n' => some .next
  | 'N' => some .nextAppended
  | 'p' => some .print
  | 'P' => some .printFirst
  | 'x' => some .swap
  | 'z' => some .clear
  | _ => none

def isLaterVersion (word : Text) : Bool :=
  let numbers := (splitAt '.' word).map fun t => digitsValue (t.takeWhile Char.isDigit)
  let major := numbers.headD 0
  4 < major || (major == 4 && 9 < (numbers[1]?).getD 0)

/-- What a step does, at the start of a text, and whether something has to divide it from the next one. -/
def editAt (style : EditStyle) (t : Text) : Except EditFault ((Edit × Bool) × Text) :=
  let jump (kind : JumpKind) (rest : Text) : Except EditFault ((Edit × Bool) × Text) :=
    .ok ((.jump kind (labelAt rest).1, false), (labelAt rest).2)
  let added (edit : Text → Edit) (rest : Text) : Except EditFault ((Edit × Bool) × Text) :=
    (addedText rest).map fun (text, rest) => ((edit text, false), rest)
  let onFile (edit : Text → Edit) (rest : Text) : Except EditFault ((Edit × Bool) × Text) :=
    if style.confined then .error (confinedFault rest)
    else .ok ((edit (restOfLine rest).1, false), (restOfLine rest).2)
  match t with
  | [] => .error ⟨"missing command", []⟩
  | '#' :: rest => .error ⟨"comments don't accept any addresses", rest⟩
  | 's' :: rest => (substitutionAt style rest).map fun (edit, rest) => ((edit, true), rest)
  | 'y' :: rest => (exchangeAt rest).map fun (edit, rest) => ((edit, true), rest)
  | 'q' :: rest => .ok ((.quit ((countAfter rest).1.getD 0), true), (countAfter rest).2)
  | 'Q' :: rest => .ok ((.quitSilently ((countAfter rest).1.getD 0), true), (countAfter rest).2)
  | 'l' :: rest => .ok ((.display (countAfter rest).1, true), (countAfter rest).2)
  | 'a' :: rest => added .append rest
  | 'i' :: rest => added .insert rest
  | 'c' :: rest => added .change rest
  | 'r' :: rest => onFile .insertFile rest
  | 'R' :: rest => onFile .insertLine rest
  | 'w' :: rest => onFile .writeLine rest
  | 'W' :: rest => onFile .writeFirst rest
  | 'e' :: rest =>
    if style.confined then .error (confinedFault rest)
    else if ((rest.dropWhile isGap).head?.getD '\n') = '\n' then .ok ((.execute [], false), rest)
    else added .execute rest
  | 'b' :: rest => jump .always rest
  | 't' :: rest => jump .ifReplaced rest
  | 'T' :: rest => jump .unlessReplaced rest
  | 'v' :: rest =>
    let (word, after) := labelAt rest
    if isLaterVersion word then .error ⟨"expected newer version of sed", after⟩
    else .ok ((.nothing, true), after)
  | ':' :: rest =>
    let (name, rest) := labelAt rest
    if name.isEmpty then .error ⟨"\":\" lacks a label", rest⟩ else .ok ((.label name, false), rest)
  | c :: rest =>
    match plainEdit? c with
    | some edit => .ok ((edit, edit != .openBlock), rest)
    | none => .error ⟨"unknown command: `" ++ String.ofList [c] ++ "'", rest⟩

/-- A step with its addresses, at the start of a text; `depth` blocks are open. -/
def stepAt (style : EditStyle) (depth : Nat) (t : Text) : Except EditFault (EditStep × Text) := do
  let (selection, t) ← selectionAt style.extended t
  let ((edit, divided), rest) ← editAt style t
  let bare := selection = {}
  match edit with
  | .label _ =>
    if !bare then throw ⟨": doesn't want any addresses", t.drop 1⟩
    if rest.head? = some '}' ∧ depth = 0 then throw ⟨"unexpected `\x7d'", rest.drop 1⟩
  | .closeBlock =>
    if depth = 0 then throw ⟨"unexpected `\x7d'", rest⟩
    if !bare then throw ⟨"`\x7d' doesn't want any addresses", rest⟩
  | .quit _ | .quitSilently _ =>
    if selection.limit.isSome then throw ⟨"command only uses one address", t.drop 1⟩
  | _ => pure ()
  if divided && !endsStep rest then
    throw ⟨"extra characters after command", (rest.dropWhile isGap).drop 1⟩
  return (⟨selection, edit⟩, rest)

/-- The steps that a text writes; `fuel` bounds their number. -/
def readStepsFrom (style : EditStyle) : Nat → Nat → Text → Except EditFault (List EditStep × Nat)
  | 0, depth, _ => .ok ([], depth)
  | fuel + 1, depth, t =>
    let t := t.dropWhile fun c => isSpace c || c == ';'
    match t with
    | [] => .ok ([], depth)
    | '#' :: rest => readStepsFrom style fuel depth (rest.dropWhile (· != '\n'))
    | _ => do
      let (step, rest) ← stepAt style depth t
      let depth := match step.edit with
        | .openBlock => depth + 1
        | .closeBlock => depth - 1
        | _ => depth
      let (later, depth) ← readStepsFrom style fuel depth rest
      return (step :: later, depth)

def readSteps (style : EditStyle) (t : Text) : Except EditFault (List EditStep) := do
  let (steps, depth) ← readStepsFrom style (t.length + 1) 0 t
  if depth ≠ 0 then throw ⟨"unmatched `\x7b'", t⟩
  return steps

def missingLabel? (steps : List EditStep) : Option Text :=
  let labels := steps.filterMap fun step =>
    match step.edit with
    | .label name => some name
    | _ => none
  steps.findSome? fun step =>
    match step.edit with
    | .jump _ name => if name.isEmpty || labels.contains name then none else some name
    | _ => none

def EditStep.source? (step : EditStep) : Option Text :=
  match step.edit with
  | .insertFile path | .insertLine path => some path
  | _ => none

def EditStep.target? (step : EditStep) : Option Text :=
  match step.edit with
  | .writeLine path | .writeFirst path => some path
  | .substitute s => s.target
  | _ => none

end Amalgam.Script
