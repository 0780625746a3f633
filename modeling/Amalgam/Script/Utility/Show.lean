import Amalgam.Script.Utility
import Amalgam.Script.Utility.Regex.Reader

/-!
# Showing whole texts

Programs that show their inputs, with numbers, in reverse order or in a form in which every character can be
seen.
-/

namespace Amalgam.Script

/-! ### Inputs one after the other -/

/-- Lines with numbers in front; without `all`, empty lines have none. -/
def numberLines (all : Bool) (n : Nat) (lines : List Text) : List Text :=
  let step (state : Nat × List Text) (line : Text) : Nat × List Text :=
    let (n, before) := state
    if all || (line != ['\n'] && line != ['$', '\n']) then
      (n + 1, (padLeft 6 (ofNat n) ++ '\t' :: line) :: before)
    else (n, line :: before)
  (lines.foldl step (n, [])).2.reverse

/-- A line with its end shown; a carriage return before it is shown as well. -/
def showEnd (line : Text) : Text :=
  match line.reverse with
  | '\n' :: '\r' :: rest => rest.reverse ++ ['^', 'M', '$', '\n']
  | '\n' :: rest => rest.reverse ++ ['$', '\n']
  | _ => line

def visibleChar (tabs : Bool) (c : Char) : Text :=
  let n := c.toNat
  if c = '\n' ∨ (c = '\t' ∧ !tabs) then [c]
  else if n < 32 then ['^', Char.ofNat (n + 64)]
  else if n < 127 then [c]
  else if n = 127 then ['^', '?']
  else if n < 160 then ['M', '-', '^', Char.ofNat (n - 64)]
  else if n < 255 then ['M', '-', Char.ofNat (n - 128)]
  else ['M', '-', '^', '?']

def squeezeLines (lines : List Text) : List Text :=
  let step (state : Bool × List Text) (line : Text) : Bool × List Text :=
    let empty := line == ['\n']
    if empty && state.1 then state else (empty, line :: state.2)
  (lines.foldl step (false, [])).2.reverse

def decorated (o : Options) (lines : List Text) : List Text :=
  let lines := if o.has 's' then squeezeLines lines else lines
  let all := o.has 'v' || o.has 'A' || o.has 'e' || o.has 't'
  let ends := o.has 'E' || o.has 'A' || o.has 'e'
  let tabs := o.has 'T' || o.has 'A' || o.has 't'
  let lines := if ends then lines.map showEnd else lines
  let lines := lines.map fun line => line.flatMap fun c =>
    if all then visibleChar tabs c else if tabs && c == '\t' then ['^', 'I'] else [c]
  if o.has 'b' then numberLines false 1 lines else if o.has 'n' then numberLines true 1 lines else lines

def placeIn? (fd : Nat) : Run (Option (Location × Nat)) := do
  match ← channelOf? fd with
  | some (_, .file loc position _) => return some (loc, position)
  | _ => return none

/-- Would an input be read from a file to which the output is written? -/
def readsOutput (path : Text) : Run Bool := do
  let tree := (← get).tree
  let source ← if path = ['-'] then placeIn? 0 else
    pure ((tree.locate (toPath path)).toOption.map fun loc => (loc, 0))
  match source, ← placeIn? 1 with
  | some (loc, position), some (place, _) =>
    let size := (contentAt tree loc).length
    return decide (loc = place) && decide (position < size)
  | _, _ => return false

def catTool : Utility := fun _ name args =>
  let spec : OptionSpec :=
    { flags := "benstuvAET",
      long := [.same "number-nonblank" 'b', .same "number" 'n', .same "squeeze-blank" 's',
        .same "show-nonprinting" 'v', .same "show-ends" 'E', .same "show-tabs" 'T', .same "show-all" 'A'] }
  withOptions spec 1 name args fun o => do
    if (← channelOf? 1).isNone then
      return ← toolFails name 1 (because "standard output".toList .badDescriptor)
    let plain := o.given.all (·.1 == "u")
    let display (shown : Nat) (text : Text) : Run Nat := do
      let lines := decorated o (linesWithEnds text)
      let all := lines.flatten
      say (all.drop shown)
      return all.length
    let (status, _, _) ← (orStandard o.operands).foldlM
      (fun (status, shown, before) path => do
        if ← readsOutput path then
          return (← toolFails name 1 (shownName path ++ ": input file is output file".toList), shown, before)
        match ← readOperand path with
        | .error e =>
          let status ← toolFails name 1 (because (shownName path) e)
          if e = .badDescriptor ∧ (← channelOf? 0).isNone then
            toolSays name (because "closing standard input".toList e)
          return (status, shown, before)
        | .ok text =>
          if plain then
            say text
            return (status, 0, [])
          let before := before ++ text
          return (status, ← display shown before, before))
      ((0, 0, []) : Nat × Nat × Text)
    return status

/-! ### Lines with numbers -/

inductive Numbering where
  | all
  | full
  | none
  | matching (f : Finder)

structure NumberPlan where
  body : Numbering := .full
  header : Numbering := .none
  footer : Numbering := .none
  /-- What the lines consist of that separate the parts of a page. -/
  mark : Text := ['\\', ':']
  step : Int := 1
  joined : Nat := 1
  first : Int := 1
  separator : Text := ['\t']
  width : Nat := 6
  left : Bool := false
  zeros : Bool := false
  /-- Do numbers go on over the ends of pages? -/
  continued : Bool := false

def numberingOf (what : String) (t : Text) : Except (Text × Bool) Numbering :=
  match t with
  | ['a'] => .ok .all
  | ['t'] => .ok .full
  | ['n'] => .ok .none
  | 'p' :: pattern =>
    match readStyled searchBasic pattern with
    | .ok regex => .ok (.matching { regex })
    | .error fault => .error (fault.text.toList, false)
  | _ => .error (("invalid " ++ what ++ " numbering style: ").toList ++ cited t, true)

def maxLineNumber : Int := Nat.pow 2 63 - 1

def numberSetting (p : NumberPlan) (key : String) (value : Text) : Except (Text × Bool) NumberPlan :=
  let whole (low high : Int) (what : String) : Except (Text × Bool) Int :=
    match wholeOf low high what value with
    | .ok n => .ok n
    | .error text => .error (text, false)
  match key with
  | "b" => (numberingOf "body" value).map fun n => { p with body := n }
  | "h" => (numberingOf "header" value).map fun n => { p with header := n }
  | "f" => (numberingOf "footer" value).map fun n => { p with footer := n }
  | "d" => .ok { p with mark := match value with
      | [c] => [c, ':']
      | _ => value }
  | "i" => (whole (-maxLineNumber - 1) maxLineNumber "invalid line number increment").map fun n => { p with step := n }
  | "l" => (whole 1 maxLineNumber "invalid line number of blank lines").map fun n =>
      { p with joined := n.toNat }
  | "v" => (whole (-maxLineNumber - 1) maxLineNumber "invalid starting line number").map fun n => { p with first := n }
  | "w" => (whole 1 (Nat.pow 2 31 - 1) "invalid line number field width").map fun n => { p with width := n.toNat }
  | "s" => .ok { p with separator := value }
  | "p" => .ok { p with continued := true }
  | "n" =>
    match String.ofList value with
    | "ln" => .ok { p with left := true, zeros := false }
    | "rn" => .ok { p with left := false, zeros := false }
    | "rz" => .ok { p with left := false, zeros := true }
    | _ => .error ("invalid line numbering format: ".toList ++ cited value, true)
  | _ => .ok p

/-- Where the program that numbers lines is. -/
structure NumberState where
  next : Int
  /-- Which lines of the present part have a number. -/
  current : Numbering
  /-- How many empty lines there were in a row. -/
  blanks : Nat := 0
  shown : List Text := []
  overflown : Bool := false

def NumberPlan.column (p : NumberPlan) (n : Int) : Text :=
  let digits := ofInt n
  let filled :=
    if p.left then padRight p.width digits
    else if !p.zeros then padLeft p.width digits
    else
      let sign := if n < 0 then ['-'] else []
      let digits := ofNat n.natAbs
      sign ++ List.replicate (p.width - sign.length - digits.length) '0' ++ digits
  filled ++ p.separator

def NumberPlan.part? (p : NumberPlan) (line : Text) : Option Numbering :=
  if p.mark.length < 2 then none
  else if line = p.mark ++ p.mark ++ p.mark then some p.header
  else if line = p.mark ++ p.mark then some p.body
  else if line = p.mark then some p.footer
  else none

def NumberPlan.line (p : NumberPlan) (s : NumberState) (line : Text) : NumberState :=
  if s.overflown then s
  else
    match p.part? line with
    | some current =>
      { s with current, next := if p.continued then s.next else p.first, shown := ['\n'] :: s.shown }
    | none =>
      let numbered (s : NumberState) : NumberState :=
        if maxLineNumber < s.next then { s with overflown := true }
        else { s with next := s.next + p.step, shown := asLine (p.column s.next ++ line) :: s.shown }
      let plain (s : NumberState) : NumberState :=
        { s with shown := asLine (List.replicate (p.width + p.separator.length) ' ' ++ line) :: s.shown }
      match s.current with
      | .all =>
        if p.joined ≤ 1 || !line.isEmpty || s.blanks + 1 == p.joined then numbered { s with blanks := 0 }
        else plain { s with blanks := s.blanks + 1 }
      | .full => if line.isEmpty then plain s else numbered s
      | .none => plain s
      | .matching f => if (f.find? line 0).isSome then numbered s else plain s

def nlTool : Utility := fun _ name args =>
  let spec : OptionSpec :=
    { flags := "p", valued := "bdfhilnsvw",
      long := [.same "header-numbering" 'h', .same "body-numbering" 'b', .same "footer-numbering" 'f',
        .same "starting-line-number" 'v', .same "line-increment" 'i', .same "no-renumber" 'p',
        .same "join-blank-lines" 'l', .same "number-separator" 's', .same "number-width" 'w',
        .same "number-format" 'n', .same "section-delimiter" 'd'] }
  withSettings spec 1 name args {} numberSetting fun p o => do
    let (status, _) ← (orStandard o.operands).foldlM
      (fun (status, s) path => do
        match ← readOperand path with
        | .error e => return (← toolFails name 1 (because (shownName path) e), s)
        | .ok text =>
          if s.overflown then return (status, s)
          let after := (bareLines text).foldl p.line s
          say after.shown.reverse.flatten
          if after.overflown then return (← toolFails name 1 "line number overflow".toList, after)
          return (status, { after with shown := [] }))
      ((0, { next := p.first, current := p.body }) : Nat × NumberState)
    closingInput name o.operands status

/-! ### Reverse order -/

/-- Where a separator stands last in the first `stop` characters: its start and its length. -/
abbrev LastFinder := Array Char → Nat → Option (Nat × Nat)

def lastText (separator : Text) : LastFinder := fun t stop =>
  ((List.range (stop + 1 - separator.length)).reverse.find? fun i =>
    slice t i (i + separator.length) = separator).map (·, separator.length)

def lastMatch (regex : Regex) : LastFinder := fun t stop =>
  let f : Finder := { regex }
  let part := t.extract 0 stop
  (List.range stop).reverse.findSome? fun i => (f.matchAt? part i).map fun m => (i, m.stop - i)

/-- The records of a text, the last one first: `stop` is where the search for the next separator ends, and
`past` where the record ends.  A separator belongs to the record before it, or after it if `before` is set.
`fuel` bounds the number of records. -/
def recordsFromEnd (find : LastFinder) (before : Bool) (t : Array Char) : Nat → Nat → Nat → List Text
  | 0, _, _ => []
  | fuel + 1, stop, past =>
    match find t stop with
    | none => [slice t 0 past]
    | some (start, length) =>
      let cut := if before then start else start + length
      slice t cut past :: recordsFromEnd find before t fuel start cut

/-- Shows the records of inputs in reverse order.  What is shown comes after all messages. -/
def tacTool : Utility := fun _ name args =>
  let spec : OptionSpec :=
    { flags := "br", valued := "s", long := [.same "before" 'b', .same "regex" 'r', .same "separator" 's'] }
  withOptions spec 1 name args fun o => do
    let separator := (o.value? 's').getD ['\n']
    let separator := if separator.isEmpty then [Char.ofNat 0] else separator
    let plain := !o.has 'b' && separator.length = 1 && !o.has 'r'
    let find : Except RegexFault LastFinder :=
      if o.has 'r' then (readStyled searchBasic separator).map lastMatch else .ok (lastText separator)
    match find with
    | .error fault => toolFails name 1 fault.text.toList
    | .ok find =>
      let (status, shown) ← (orStandard o.operands).foldlM
        (fun (status, shown) path => do
          match ← readOperand path with
          | .error e =>
            let title := if path = ['-'] then quoted "standard input".toList else shownName path
            let refusal := match e with
              | .isDirectory => because (title ++ ": read error".toList) .invalidArgument
              | .badDescriptor => because (title ++ ": read error".toList) e
              | _ => because ("failed to open ".toList ++ quoted path ++ " for reading".toList) e
            return (← toolFails name 1 refusal, shown)
          | .ok text =>
            let records := if plain then (piecesWithEnds (separator.headD '\n') text).reverse
              else recordsFromEnd find (o.has 'b') text.toArray (text.length + 1) text.length text.length
            return (status, records.flatten :: shown))
        (((0, []) : Nat × List Text))
      say shown.reverse.flatten
      closingInput name o.operands status

/-- Shows the characters of each line in reverse order.  What is shown comes after all messages. -/
def revTool : Utility := fun _ name args =>
  let refuse (text : Text) : Run Nat := do
    toolSays name text
    seeHelp (lastName name)
    return 1
  withOptionsOr refuse { flags := "V0h", long := [.same "zero" '0'] } name args fun o => do
    let reversed (text : Text) : Text :=
      (linesWithEnds text).flatMap fun line =>
        if line.getLast? = some '\n' then asLine line.dropLast.reverse else line.reverse
    if o.operands.isEmpty then
      say (reversed (← readAll 0))
      return 0
    let (status, shown) ← o.operands.foldlM
      (fun (status, shown) path => do
        match ← readFile path with
        | .error e => return (← toolFails name 1 (because ("cannot open ".toList ++ path) e), shown)
        | .ok text => return (status, reversed text :: shown))
      (((0, []) : Nat × List Text))
    say shown.reverse.flatten
    return status

/-! ### Copies of what is shown -/

def teeTool : Utility := fun _ name args =>
  let spec : OptionSpec :=
    { flags := "aip",
      long := [.same "append" 'a', .same "ignore-interrupts" 'i', .attached "output-error"] }
  let modes := ["warn", "warn-nopipe", "exit", "exit-nopipe"].map fun word => ([word], ())
  let setting (_ : Unit) (key : String) (value : Text) : Except (Text × Bool) Unit :=
    if key = "output-error" && !value.isEmpty then
      (choiceOf "--output-error" modes value).mapError fun text => (text, true)
    else .ok ()
  withSettings spec 1 name args () setting fun _ o => do
    let opened ← o.operands.mapM fun path => do
      match ← openFile path (if o.has 'a' then .append else .write) with
      | .ok id => return (path, some id)
      | .error e =>
        toolSays name (because (shownName path) e)
        return (path, none)
    let failed := opened.any (·.2.isNone)
    match ← readStandard with
    | .error e =>
      toolSays name (because "read error".toList e)
      if e = .badDescriptor then toolSays name (because "standard input".toList e)
      return 1
    | .ok text =>
      say text
      opened.foldlM
        (fun status (path, id?) => do
          match id? with
          | none => return status
          | some id =>
            let free := 1000
            setDescriptor free id
            let fault ← writeFault? free
            let _ ← writeTo free text
            closeDescriptor free
            match fault with
            | some e =>
              if text.isEmpty then return status else toolFails name 1 (because (shownName path) e)
            | none => return status)
        (if failed then 1 else 0)

end Amalgam.Script
