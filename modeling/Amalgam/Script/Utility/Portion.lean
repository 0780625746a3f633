import Amalgam.Script.Utility

/-!
# First and last parts

Programs that show the first or the last lines or bytes of inputs.  The one that shows the first part does
not read more than it needs: what it leaves of the standard input can be read by others.
-/

namespace Amalgam.Script

structure Portion where
  bytes : Bool := false
  count : Nat := 10
  /-- The count is one of those that are not shown. -/
  opposite : Bool := false
  /-- Is each part shown under a heading?  If nothing is said, it is if there are several. -/
  headings : Option Bool := none
  stop : Char := '\n'

/-- How long the first lines of a text are, after a number of characters. -/
def linesLength (stop : Char) : Nat → Nat → Text → Nat
  | size, 0, _ => size
  | size, _ + 1, [] => size
  | size, n + 1, c :: rest => linesLength stop (size + 1) (if c = stop then n else n + 1) rest

def countLines (stop : Char) (t : Text) : Nat :=
  t.count stop + if t.isEmpty || t.getLast? = some stop then 0 else 1

def Portion.firstLength (p : Portion) (t : Text) : Nat :=
  match p.bytes, p.opposite with
  | true, false => min p.count t.length
  | true, true => t.length - p.count
  | false, false => linesLength p.stop 0 p.count t
  | false, true => linesLength p.stop 0 (countLines p.stop t - p.count) t

def Portion.isComplete (p : Portion) (t : Text) : Bool :=
  !p.opposite && (if p.bytes then p.count ≤ t.length else p.count ≤ t.count p.stop)

def Portion.last (p : Portion) (t : Text) : Text :=
  match p.bytes, p.opposite with
  | true, false => t.drop (t.length - p.count)
  | true, true => t.drop (p.count - 1)
  | false, false => t.drop (linesLength p.stop 0 (countLines p.stop t - p.count) t)
  | false, true => t.drop (linesLength p.stop 0 (p.count - 1) t)

def countUnits : String := "bkKmMGTPEZY0"

def Portion.countName (bytes : Bool) : String :=
  if bytes then "invalid number of bytes" else "invalid number of lines"

def Portion.counting (p : Portion) (bytes : Bool) (t : Text) : Except (Text × Bool) Portion :=
  match sizeOf countUnits t with
  | .ok count => .ok { p with bytes, count }
  | .error fault => .error (fault.text (Portion.countName bytes) t, false)

/-- Shows the heading of a part; `first` says that there was none before. -/
def sayHeading (path : Text) (first : Bool) : Run Unit := do
  let title := if path = ['-'] then "standard input".toList else path
  say ((if first then [] else ['\n']) ++ "==> ".toList ++ title ++ " <==\n".toList)

/-- Shows a part of each input, with headings if there are several.  `shown` shows the part of one input, or
says why that is not possible. -/
def showParts (name : Text) (p : Portion) (operands : List Text)
    (verb : String) (shown : Text → Run (Option OsError)) : Run Nat := do
  let operands := orStandard operands
  let headings := p.headings.getD (1 < operands.length)
  let (status, _) ← operands.foldlM
    (fun (status, first) path => do
      let missing ← if path = ['-'] then pure none else
        match descriptorNamed? (← get).tree path, (← get).tree.locate (toPath path) with
        | none, .error e => pure (some e)
        | _, _ => pure none
      match missing with
      | some e =>
        toolSays name (because ("cannot open ".toList ++ quoted path ++ " for reading".toList) e)
        return (1, first)
      | none =>
        if headings then sayHeading path first
        match ← shown path with
        | none => return (status, false)
        | some e =>
          let title := if path = ['-'] then "standard input".toList else path
          let verb := if e = .badDescriptor then verb else "error reading "
          toolSays name (because (verb.toList ++ quoted title) e)
          return (1, false))
    ((0, true) : Nat × Bool)
  closingInput name operands status

/-! ### The first part -/

def blockSize : Nat := 8192

/-- Shows the first part of what can be read from a descriptor, and leaves the rest.  From a stream, whole
blocks are read if lines are counted. -/
def showFirstOf (p : Portion) (fd : Nat) : Run (Option OsError) := do
  match ← channelOf? fd with
  | none => return if p.opposite || p.count ≠ 0 then some .badDescriptor else none
  | some (_, channel) =>
    let tree := (← get).tree
    let isDir := match channel with
      | .file loc _ _ => tree.entry? loc == some .dir
      | .stream _ => false
    if isDir && (p.opposite || p.count ≠ 0) then return some .isDirectory
    let text ← remaining fd
    let length := p.firstLength text
    let used := match channel with
      | .file _ _ _ => length
      | .stream _ =>
        if p.opposite then text.length
        else if p.bytes then length
        else (length + blockSize - 1) / blockSize * blockSize
    advanceBy fd used
    if !p.isComplete text then noteEnd fd
    say (text.take length)
    return none

def showFirst (p : Portion) (path : Text) : Run (Option OsError) := do
  let tree := (← get).tree
  let fd? := if path = ['-'] then some 0 else descriptorNamed? tree path
  match fd? with
  | some fd => showFirstOf p fd
  | none =>
    if !p.opposite && p.count = 0 then return none
    let bound := if p.bytes && !p.opposite then some p.count else none
    match ← readFileUpTo bound path with
    | .error e => return some e
    | .ok text =>
      say (text.take (p.firstLength text))
      return none

def oldHeadLetter (p : Portion) (unit : Text) : Text → Except Char (Portion × Text)
  | [] => .ok (p, unit)
  | c :: rest =>
    match c with
    | 'c' => oldHeadLetter { p with bytes := true } [] rest
    | 'b' | 'k' | 'm' => oldHeadLetter { p with bytes := true } [c] rest
    | 'l' => oldHeadLetter { p with bytes := false } unit rest
    | 'q' => oldHeadLetter { p with headings := some false } unit rest
    | 'v' => oldHeadLetter { p with headings := some true } unit rest
    | 'z' => oldHeadLetter { p with stop := lineEnd true } unit rest
    | _ => .error c

/-- The old way of giving a count, as an option of digits that comes first. -/
def oldHead (args : List Text) : Except Text (Option Portion × List Text) :=
  match args with
  | ('-' :: c :: more) :: rest =>
    if !c.isDigit then .ok (none, args)
    else
      let digits := (c :: more).takeWhile Char.isDigit
      match oldHeadLetter {} [] ((c :: more).drop digits.length) with
      | .error letter => .error ("invalid trailing option -- ".toList ++ [letter])
      | .ok (p, unit) =>
        match p.counting p.bytes (digits ++ unit) with
        | .ok p => .ok (some p, rest)
        | .error (text, _) => .error text
  | _ => .ok (none, args)

def headSetting (p : Portion) (key : String) (value : Text) : Except (Text × Bool) Portion :=
  match key with
  | "c" | "n" =>
    let bytes := key == "c"
    match value with
    | '-' :: rest => (p.counting bytes rest).map fun p => { p with opposite := true }
    | _ => (p.counting bytes value).map fun p => { p with opposite := false }
  | "q" => .ok { p with headings := some false }
  | "v" => .ok { p with headings := some true }
  | "z" => .ok { p with stop := lineEnd true }
  | digit => .error ("invalid trailing option -- ".toList ++ digit.toList, true)

def partNames : List LongOption :=
  [.same "bytes" 'c', .same "lines" 'n', .same "quiet" 'q', .same "silent" 'q', .same "verbose" 'v',
    .same "zero-terminated" 'z']

def headTool : Utility := fun _ name args => do
  match oldHead args with
  | .error text =>
    if "invalid trailing".toList.isPrefixOf text then misused name 1 text else toolFails name 1 text
  | .ok (old, args) =>
    withSettings { flags := "qvz0123456789", valued := "cn", long := partNames } 1 name args (old.getD {})
      headSetting fun p o => showParts name p o.operands "error reading " (showFirst p)

/-! ### The last part -/

/-- The old way of giving a count for the last part, as one argument with a sign, and perhaps one file. -/
def oldTail (args : List Text) : Option (Portion × List Text) :=
  match args with
  | (sign :: more) :: rest =>
    let fits := match rest with
      | [] => true
      | [file] => file.length ≤ 1 || file.head? != some '-'
      | _ => rest.length ≤ 2 && rest.head? == some ['-', '-']
    if !fits || (sign != '+' && sign != '-') then none
    else if sign = '-' ∧ (more.isEmpty ∨ more = ['c']) then none
    else
      let digits := more.takeWhile Char.isDigit
      let count := if digits.isEmpty then 10 else digitsValue digits
      let part : Portion := { count, opposite := sign == '+' }
      let scaled (factor : Nat) : Portion :=
        { part with bytes := true, count := count * factor }
      let (part, tail) := match more.drop digits.length with
        | 'b' :: tail => (scaled 512, tail)
        | 'c' :: tail => (scaled 1, tail)
        | 'l' :: tail => (part, tail)
        | tail => (part, tail)
      if tail.isEmpty || tail = ['f'] then some (part, rest) else none
  | _ => none

def tailSetting (p : Portion) (key : String) (value : Text) : Except (Text × Bool) Portion :=
  match key with
  | "c" | "n" =>
    let bytes := key == "c"
    match value with
    | '-' :: rest => (p.counting bytes rest).map fun p => { p with opposite := false }
    | '+' :: _ => (p.counting bytes value).map fun p => { p with opposite := true }
    | _ => (p.counting bytes value).map fun p => { p with opposite := false }
  | "q" => .ok { p with headings := some false }
  | "v" => .ok { p with headings := some true }
  | "z" => .ok { p with stop := lineEnd true }
  | "f" | "F" | "s" | "follow" | "retry" | "pid" | "max-unchanged-stats" => .ok p
  | digit => .error ("option used in invalid context -- ".toList ++ digit.toList, false)

def tailTool : Utility := fun _ name args => do
  let (start, args) := match oldTail args with
    | some (p, rest) => (p, rest)
    | none => ({}, args)
  let spec : OptionSpec :=
    { flags := "fFqvz0123456789", valued := "cns",
      long := partNames ++ [.attached "follow", .valued "max-unchanged-stats", .valued "pid", .flag "retry",
        .same "sleep-interval" 's'] }
  withSettings spec 1 name args start tailSetting fun p o => do
    if p.count = 0 && !p.opposite then return 0
    showParts name p o.operands "cannot fstat " fun path => do
      match ← readOperand path with
      | .error e => return some e
      | .ok text =>
        say (p.last text)
        return none

end Amalgam.Script
