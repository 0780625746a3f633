import Amalgam.FileTree.Edit
import Amalgam.Script.Utility.Search

/-!
# Searching files

The program that searches files and directories for lines.
-/

namespace Amalgam.Script

/-- A rule that lets files in or keeps them out. -/
structure FileRule where
  included : Bool
  pattern : Text
  deriving DecidableEq, Repr

def pathEnds (path : Text) : List Text :=
  let pieces := splitAt '/' path
  (List.range pieces.length).filterMap fun n =>
    let rest := pieces.drop n
    if rest.head? = some [] && n ≠ 0 then none else some (joinWith '/' rest)

/-- Is a file kept out, which may be called by several names?  The last rule that fits counts. -/
def keptOut (rules : List FileRule) (names : List Text) : Bool :=
  match (rules.filter fun rule => names.any (fitsGlob rule.pattern)).getLast? with
  | some rule => !rule.included
  | none => (rules.head?.map FileRule.included).getD false

inductive DirectoryAction where
  | read
  | recurse (throughLinks : Bool)
  | skip
  deriving DecidableEq, Repr

/-- What is done with files that hold the character with the number zero. -/
inductive BinaryAction where
  | mention
  | asText
  | skip
  deriving DecidableEq, Repr

/-- A pattern, and where it comes from if that is a file: its name and the line. -/
structure GivenPattern where
  text : Text
  origin : Option (Text × Nat) := none

structure SearchSettings where
  writing : Option Char := none
  /-- The patterns, if there is an option for them. -/
  patterns : Option (List GivenPattern) := none
  ignoreCase : Bool := false
  wholeWords : Bool := false
  wholeLines : Bool := false
  inverted : Bool := false
  count : Bool := false
  quiet : Bool := false
  /-- Only names of inputs are shown: of those with a selected line, or of the others. -/
  listing : Option Bool := none
  limit : Option Nat := none
  before : Option Nat := none
  after : Option Nat := none
  around : Option Nat := none
  divider : Option Text := some ['-', '-']
  named : Option Bool := none
  style : LineStyle := {}
  label : Text := "(standard input)".toList
  binary : BinaryAction := .mention
  noMessages : Bool := false
  directories : DirectoryAction := .read
  fileRules : List FileRule := []
  dirRules : List FileRule := []

/-! ### Options -/

def searchSpec : OptionSpec :=
  { flags := "0123456789EFGHILPTUVabchiLlnoqRrsuvwxyZz", valued := "ABCDXdefm",
    long := [.same "basic-regexp" 'G', .same "extended-regexp" 'E', .same "fixed-regexp" 'F',
      .same "fixed-strings" 'F', .same "perl-regexp" 'P', .same "after-context" 'A',
      .same "before-context" 'B', .valued "binary-files", .same "binary" 'U', .same "byte-offset" 'b',
      .same "context" 'C', .attached "color", .attached "colour", .same "count" 'c', .same "devices" 'D',
      .same "directories" 'd', .valued "exclude", .valued "exclude-from", .valued "exclude-dir",
      .same "file" 'f', .same "files-with-matches" 'l', .same "files-without-match" 'L',
      .valued "group-separator", .valued "include", .same "ignore-case" 'i', .flag "no-ignore-case",
      .same "initial-tab" 'T', .valued "label", .flag "line-buffered", .same "line-number" 'n',
      .same "line-regexp" 'x', .same "max-count" 'm', .same "no-filename" 'h', .flag "no-group-separator",
      .same "no-messages" 's', .same "null" 'Z', .same "null-data" 'z', .same "only-matching" 'o',
      .same "quiet" 'q', .same "recursive" 'r', .same "dereference-recursive" 'R', .same "regexp" 'e',
      .same "invert-match" 'v', .same "silent" 'q', .same "text" 'a', .same "unix-byte-offsets" 'u',
      .same "with-filename" 'H', .same "word-regexp" 'w'] }

def searchUsage (name : Text) : Run Nat := do
  sayError (asLine ("Usage: ".toList ++ name ++ " [OPTION]... PATTERNS [FILE]...".toList))
  seeHelp name
  return 2

def anyInteger? (t : Text) : Option Int :=
  match t.dropWhile isSpace with
  | '-' :: digits => (natOf? digits).map fun n => -(n : Int)
  | '+' :: digits => (natOf? digits).map Int.ofNat
  | digits => (natOf? digits).map Int.ofNat

/-- What an option changes; an option may end the program with a status. -/
abbrev SettingStep := Run (Except Nat SearchSettings)

def SearchSettings.written (s : SearchSettings) (name : Text) (letter : Char) : SettingStep := do
  if s.writing.all (· == letter) then return .ok { s with writing := some letter }
  else return .error (← toolFails name 2 "conflicting matchers specified".toList)

/-- The number of lines around selected ones that an option asks for. -/
def contextLength (name value : Text) (put : Nat → SearchSettings) : SettingStep := do
  match anyInteger? value with
  | some (.ofNat n) => return .ok (put n)
  | _ => return .error (← toolFails name 2 (value ++ ": invalid context length argument".toList))

def SearchSettings.addPatterns (s : SearchSettings) (patterns : List GivenPattern) : SearchSettings :=
  { s with patterns := some (s.patterns.getD [] ++ patterns) }

def wantsColour? (word : Text) : Option Bool :=
  match String.ofList word with
  | "always" | "yes" | "force" => some true
  | "never" | "no" | "none" | "auto" | "tty" | "if-tty" => some false
  | _ => none

def fromFile (name path : Text) (noMessages : Bool) (use : List Text → SearchSettings) : SettingStep := do
  match ← readOperand path with
  | .ok text => return .ok (use (bareLines text))
  | .error e =>
    if !noMessages then toolSays name (because path e)
    return .error 2

def patternsOf (path : Text) (lines : List Text) : List GivenPattern :=
  lines.zipIdx.map fun (text, i) => { text, origin := some (path, i + 1) }

def SearchSettings.flag (s : SearchSettings) (key : String) : SearchSettings :=
  match key with
  | "i" | "y" => { s with ignoreCase := true }
  | "no-ignore-case" => { s with ignoreCase := false }
  | "w" => { s with wholeWords := true }
  | "x" => { s with wholeLines := true }
  | "v" => { s with inverted := true }
  | "c" => { s with count := true }
  | "q" => { s with quiet := true }
  | "l" => { s with listing := some true }
  | "L" => { s with listing := some false }
  | "H" => { s with named := some true }
  | "h" => { s with named := some false }
  | "n" => { s with style := { s.style with numbers := true } }
  | "b" => { s with style := { s.style with offsets := true } }
  | "T" => { s with style := { s.style with tabbed := true } }
  | "Z" => { s with style := { s.style with zeroAfterTitle := true } }
  | "z" => { s with style := { s.style with stop := lineEnd true } }
  | "o" => { s with style := { s.style with partsOnly := true } }
  | "a" => { s with binary := .asText }
  | "I" => { s with binary := .skip }
  | "s" => { s with noMessages := true }
  | "r" => { s with directories := .recurse false }
  | "R" => { s with directories := .recurse true }
  | "no-group-separator" => { s with divider := none }
  | _ => s

def SearchSettings.step (name : Text) (s : SearchSettings) (key : String) (value : Text) : SettingStep := do
  match key with
  | "E" => s.written name 'E'
  | "F" => s.written name 'F'
  | "G" => s.written name 'G'
  | "P" => s.written name 'P'
  | "X" =>
    match String.ofList value with
    | "grep" => s.written name 'G'
    | "egrep" => s.written name 'E'
    | "fgrep" => s.written name 'F'
    | "perl" => s.written name 'P'
    | _ => return .error (← toolFails name 2 ("invalid matcher ".toList ++ value))
  | "A" => contextLength name value fun n => { s with after := some n }
  | "B" => contextLength name value fun n => { s with before := some n }
  | "C" => contextLength name value fun n => { s with around := some n }
  | "m" =>
    match anyInteger? value with
    | some n => return .ok { s with limit := if n < 0 then none else some n.toNat }
    | none => return .error (← toolFails name 2 "invalid max count".toList)
  | "e" => return .ok (s.addPatterns ((splitAt '\n' value).map fun text => { text }))
  | "f" =>
    fromFile name value s.noMessages fun lines => s.addPatterns (patternsOf value lines)
  | "D" =>
    if value = "read".toList ∨ value = "skip".toList then return .ok s
    else return .error (← toolFails name 2 "unknown devices method".toList)
  | "d" =>
    match choiceOf "--directories" [(["read"], DirectoryAction.read), (["recurse"], .recurse false),
        (["skip"], .skip)] value with
    | .ok directories => return .ok { s with directories }
    | .error text =>
      toolSays name text
      return .error (← searchUsage name)
  | "binary-files" =>
    match String.ofList value with
    | "binary" => return .ok { s with binary := .mention }
    | "text" => return .ok { s with binary := .asText }
    | "without-match" => return .ok { s with binary := .skip }
    | _ => return .error (← toolFails name 2 "unknown binary-files type".toList)
  | "color" | "colour" =>
    match if value.isEmpty then some false else wantsColour? value with
    | some coloured => return .ok { s with style := { s.style with coloured } }
    | none => return .error 0
  | "group-separator" => return .ok { s with divider := some value }
  | "label" => return .ok { s with label := value }
  | "include" => return .ok { s with fileRules := s.fileRules ++ [⟨true, value⟩] }
  | "exclude" => return .ok { s with fileRules := s.fileRules ++ [⟨false, value⟩] }
  | "exclude-from" =>
    fromFile name value s.noMessages fun lines =>
      { s with fileRules := s.fileRules ++ (lines.filter (!·.isEmpty)).map fun line => ⟨false, line⟩ }
  | "exclude-dir" =>
    let pattern := (value.reverse.dropWhile (· == '/')).reverse
    return .ok { s with dirRules := s.dirRules ++ [⟨false, if pattern.isEmpty then value else pattern⟩] }
  | "u" =>
    toolSays name "warning: --unix-byte-offsets (-u) is obsolete".toList
    return .ok s
  | _ =>
    match natOf? key.toList with
    | some d => return .ok { s with around := some (s.around.getD 0 * 10 + d) }
    | none => return .ok (s.flag key)

def SearchSettings.steps (name : Text) (o : Options) : SettingStep :=
  o.given.foldlM
    (fun s (key, value) => do
      match s with
      | .error status => return .error status
      | .ok s => s.step name key value)
    (.ok {})

/-! ### Patterns -/

def SearchSettings.readPattern (s : SearchSettings) (t : Text) : Except RegexFault Regex :=
  match s.writing with
  | some 'F' => .ok (literalRegex t)
  | some 'E' | some 'P' => readStyled searchExtended t
  | _ => readStyled searchBasic t

def GivenPattern.faultText (p : GivenPattern) (fault : RegexFault) : Text :=
  match p.origin with
  | some (path, line) => path ++ ':' :: ofNat line ++ ": ".toList ++ fault.text.toList
  | none => fault.text.toList

def SearchSettings.finders? (s : SearchSettings) (name : Text) (patterns : List GivenPattern) :
    Run (Option (List Finder)) := do
  let (regexes, failed) ← patterns.foldlM
    (fun (regexes, failed) p => do
      match s.readPattern p.text with
      | .ok regex => return (regex :: regexes, failed)
      | .error fault =>
        toolSays name (p.faultText fault)
        return (regexes, true))
    (([], false) : List Regex × Bool)
  if failed then return none
  if s.writing ≠ some 'F' then
    for p in patterns do
      if s.writing = some 'E' then
        for operator in leadingOperators (p.text.length + 1) true p.text do
          toolSays name ("warning: ".toList ++ operator.toList ++ " at start of expression".toList)
      if misplacedClass (p.text.length + 1) p.text then
        toolSays name "character class syntax is [[:space:]], not [:space:]".toList
        return none
  return some (regexes.reverse.map fun regex => { regex, ignoreCase := s.ignoreCase })

/-! ### Inputs -/

structure SearchState where
  used : Bool := false
  found : Bool := false
  failed : Bool := false
  named : Bool := false

def outputIgnored : Run Bool := do
  match ← channelOf? 1 with
  | some (_, .file loc _ _) => return (← get).tree.entry? loc = some .sink
  | _ => return false

def SearchSettings.wanted (s : SearchSettings) (ignored : Bool) : Option Nat :=
  if s.quiet || s.listing.isSome || ignored then some (min 1 (s.limit.getD 1)) else s.limit

def SearchSettings.isSilent (s : SearchSettings) (ignored : Bool) : Bool :=
  s.quiet || s.listing.isSome || s.count || ignored

/-- How wide numbers are in front of the lines of an input that has a size, if it has one. -/
def numberWidth (size : Option Nat) : Nat :=
  match size with
  | some n => (ofNat n).length
  | none => 19

/-- Searches a text: says what is to be said, and gives what was looked at up to the last selected line if
not all was. -/
def searchText (s : SearchSettings) (name title : Text) (q : Searcher) (size : Option Nat) (text : Text)
    (p : SearchState) : Run (SearchState × Option Nat) := do
  let ignored ← outputIgnored
  let zero := lineEnd true
  let isBinary := s.style.stop != zero && s.binary != .asText && text.contains zero
  if isBinary && s.binary == .skip then return (p, none)
  let text := if isBinary then text.map fun c => if c == zero then '\n' else c else text
  let silent := s.isSilent ignored
  let style := { s.style with
    title := if p.named then some title else none
    width := if s.style.tabbed then numberWidth size else 0 }
  let context : Surroundings :=
    { before := s.before.getD (s.around.getD 0)
      after := s.after.getD (s.around.getD 0)
      divider := if s.before.isSome || s.after.isSome || s.around.isSome then s.divider else none }
  let search : LineSearch :=
    { query := q, style, context,
      limit := if isBinary && !silent then some (min 1 (s.limit.getD 1)) else s.wanted ignored,
      silent := silent || isBinary }
  let scan := search.scan p.used text
  let found := scan.count ≠ 0
  if !ignored then
    if let some wanted := s.listing then
      if !s.quiet && found == wanted then
        let plain := { style with title := none }
        say (plain.paint "35" title ++ [if style.zeroAfterTitle then zero else '\n'])
    else if s.count && !s.quiet then say (style.titleText ':' ++ asLine (ofNat scan.count))
    else
      say scan.shown.reverse.flatten
      if isBinary && found && !silent then
        toolSays name (title ++ ": binary file matches".toList)
  return ({ p with found := p.found || found, used := scan.used }, scan.finished)

def searchFault (s : SearchSettings) (name title : Text) (e : OsError) (p : SearchState) : Run SearchState := do
  if !s.noMessages then toolSays name (because title e)
  return { p with failed := true }

def isOutput (s : SearchSettings) (loc : Location) : Run Bool := do
  match ← channelOf? 1, (← get).tree.entry? loc with
  | some (_, .file out _ _), some (.file _ _) => return out == loc && !s.isSilent false && s.limit != some 1
  | _, _ => return false

def searchBlock : Nat := 32768

def searchStandard (s : SearchSettings) (name : Text) (q : Searcher) (p : SearchState) : Run SearchState := do
  let title := s.label
  match ← channelOf? 0 with
  | none => searchFault s name title .badDescriptor p
  | some (_, .file loc position access) =>
    if !access.reads then return ← searchFault s name title .badDescriptor p
    match (← get).tree.entry? loc with
    | some .dir =>
      if s.directories = .skip then return p
      searchFault s name title .isDirectory p
    | _ =>
      if ← isOutput s loc then
        toolSays name (title ++ ": input file is also the output".toList)
        return { p with failed := true }
      let text ← remaining 0
      let (p, finished) ← searchText s name title q (some (position + text.length)) text p
      let restores := s.limit.isSome && !s.quiet && s.listing.isNone
      advanceBy 0 (if restores then finished.getD text.length else text.length)
      return p
  | some (_, .stream _) =>
    let text ← remaining 0
    let (p, finished) ← searchText s name title q none text p
    match finished with
    | some used => advanceBy 0 ((used + searchBlock - 1) / searchBlock * searchBlock)
    | none =>
      advanceBy 0 text.length
      noteEnd 0
    return p

def searchFile (s : SearchSettings) (name path title : Text) (q : Searcher) (p : SearchState) : Run SearchState := do
  match (← get).tree.locate (toPath path) with
  | .ok loc =>
    if ← isOutput s loc then
      toolSays name (title ++ ": input file is also the output".toList)
      return { p with failed := true }
  | .error _ => pure ()
  match ← readFile path with
  | .error e => searchFault s name title e p
  | .ok text => return (← searchText s name title q (some text.length) text p).1

/-- Searches all files below a directory; `fuel` bounds the depth. -/
def searchBelow (s : SearchSettings) (name : Text) (throughLinks : Bool) (q : Searcher) :
    Nat → Text → Text → SearchState → Run SearchState
  | 0, _, _, p => return p
  | fuel + 1, dir, shown, p => do
    let names := ((← get).tree.names (toPath dir)).map ofString
    names.foldlM
      (fun p last => do
        if s.quiet && p.found then return p
        let path := inDirectory dir last
        let title := if shown.isEmpty then last else inDirectory shown last
        let tree := (← get).tree
        let isLink := match tree.placeOf (toPath path) with
          | .ok loc => match tree.entry? loc with
            | some (.link _) => true
            | _ => false
          | .error _ => false
        if isLink && !throughLinks then return p
        match tree.locate (toPath path) with
        | .error e => searchFault s name title e p
        | .ok loc =>
          match tree.entry? loc with
          | some .dir =>
            if keptOut s.dirRules [last] then return p
            searchBelow s name throughLinks q fuel path title p
          | some (.file _ _) | some (.program _) =>
            if keptOut s.fileRules [last] then return p
            searchFile s name path title q p
          | _ => return p)
      p

def maxDepth : Nat := 1000

def searchPath (s : SearchSettings) (name : Text) (q : Searcher) (unnamed : Bool) (p : SearchState)
    (path : Text) : Run SearchState := do
  if s.quiet && p.found then return p
  if path = ['-'] then return ← searchStandard s name q p
  match (← get).tree.locate (toPath path) with
  | .error e =>
    if (descriptorNamed? (← get).tree path).isSome then searchFile s name path path q p
    else searchFault s name path e p
  | .ok loc =>
    if (← get).tree.entry? loc = some .dir then
      if s.directories = .skip then return p
      if !unnamed && keptOut s.dirRules (pathEnds path) then return p
      match s.directories with
      | .recurse throughLinks =>
        let p := { p with named := s.named.getD true }
        searchBelow s name throughLinks q maxDepth path (if unnamed then [] else path) p
      | _ => searchFault s name path .isDirectory p
    else if keptOut s.fileRules (pathEnds path) then return p
    else searchFile s name path path q p

def grepTool : Utility := fun _ name args =>
  let refuse (text : Text) : Run Nat := do
    toolSays name text
    searchUsage name
  withChecked refuse searchSpec name args (SearchSettings.steps name) fun s o => do
    let (patterns, files) : Option (List GivenPattern) × List Text := match s.patterns, o.operands with
      | none, pattern :: files => (some ((splitAt '\n' pattern).map fun text => { text }), files)
      | patterns, files => (patterns, files)
    match patterns with
    | none => searchUsage name
    | some patterns =>
      if (s.limit = some 0 ∨ (patterns.isEmpty ∧ !s.inverted)) ∧ s.listing ≠ some false then return 1
      match ← s.finders? name patterns with
      | none => return 2
      | some finders =>
        let q : Searcher := ⟨finders, s.wholeLines, s.wholeWords, s.inverted⟩
        let isRecursive := match s.directories with
          | .recurse _ => true
          | _ => false
        let unnamed := files.isEmpty && isRecursive
        let files := if unnamed then [['.']] else orStandard files
        let p ← files.foldlM (searchPath s name q unnamed) { named := s.named.getD (1 < files.length) }
        return if s.quiet && p.found then 0 else if p.failed then 2 else if p.found then 0 else 1

end Amalgam.Script
