import Amalgam.Script.Calendar
import Amalgam.Script.Utility.Copies
import Amalgam.Script.Utility.Order

/-!
# Listings

The program that lists the names in directories.
-/

namespace Amalgam.Script

inductive ListForm where
  | lines
  | long
  /-- In columns, which are filled one after the other. -/
  | columns
  /-- In rows, which are filled one after the other. -/
  | rows
  | commas
  deriving DecidableEq, Repr

inductive ListOrder where
  | name
  | none
  | time
  | size
  | ending
  | version
  | width
  deriving DecidableEq, Repr

inductive NameQuoting where
  | literal
  | shell (always escaping : Bool)
  | double
  | escaped
  | cited
  deriving DecidableEq, Repr

inductive Indicators where
  | none
  | slashes
  | types
  /-- Files that can be run are marked as well. -/
  | all
  deriving DecidableEq, Repr

/-- What is listed, in which order and in which form. -/
structure ListPlan where
  hidden : Bool := false
  /-- The directory itself and the one above it are listed as well. -/
  dots : Bool := false
  form : Option ListForm := none
  order : Option ListOrder := none
  backwards : Bool := false
  recursive : Bool := false
  plain : Bool := false
  indicators : Indicators := .none
  quoting : NameQuoting := .literal
  /-- Characters that are not shown are replaced. -/
  masking : Bool := false
  links : Option LinkRule := none
  dirsFirst : Bool := false
  ignored : List Text := []
  /-- Names that are left out unless hidden names are listed. -/
  unlisted : List Text := []
  width : Option Nat := none
  tab : Nat := 8
  owner : Bool := true
  group : Bool := true
  author : Bool := false
  numeric : Bool := false
  blocks : Bool := false
  inodes : Bool := false
  human : Option Nat := none
  sizeUnit : Nat := 1
  blockUnit : Nat := 1024
  /-- The word that says how times are written. -/
  timeStyle : Option Text := none
  unitMark : Text := []
  stop : Char := '\n'

/-- A name with what is known of the thing it names. -/
structure Listed where
  name : Text
  loc : Location
  entry : Entry
  mode : Nat
  size : Nat
  time : Int
  names : Nat
  target : Option (Text × Option (Entry × Nat)) := none
  unknown : Bool := false

namespace Listed

def leadsToDir (item : Listed) : Bool :=
  item.entry == .dir ||
    match item.target with
    | some (_, some (.dir, _)) => true
    | _ => false

def diskBlock : Nat := 4096

def diskSize (item : Listed) : Nat :=
  match item.entry with
  | .dir => diskBlock
  | .file _ _ | .program _ => (item.size + diskBlock - 1) / diskBlock * diskBlock
  | _ => 0

end Listed

def entrySize : Entry → Nat
  | .dir => Listed.diskBlock
  | .file content _ => content.length
  | .link target => target.utf8ByteSize
  | _ => 0

def nameCount (tree : FileTree) (loc : Location) : Nat :=
  match tree.entry? loc with
  | some .dir => 2 + ((tree.namesAt loc).filter fun name => tree.entry? (loc ++ [name]) == some .dir).length
  | _ => (tree.twins loc).length

def listedAt (tree : FileTree) (name : Text) (loc : Location) : Listed :=
  let entry := (tree.entry? loc).getD (.link "")
  let target := match entry with
    | .link target =>
      let goal := FileTree.Spot.location (tree.follow .follow FileTree.maxLinks
        (if (Path.mk target).isAbsolute then [] else loc.dropLast) (Path.mk target).steps)
      let there := match goal with
        | .ok place => (tree.entry? place).map fun entry => (entry, tree.modeAt place)
        | .error _ => none
      some (ofString target, there)
    | _ => none
  { name, loc, entry, target, mode := tree.modeAt loc, size := entrySize entry,
    time := changeTime tree loc, names := nameCount tree loc }

/-! ### Names -/

def escapedName (quotes : Bool) (t : Text) : Text :=
  let inside := t.flatMap fun c =>
    if c == '\\' || (quotes && c == '"') || (!quotes && c == ' ') then ['\\', c]
    else if isUnshown c then unshownText c else [c]
  if quotes then '"' :: inside ++ ['"'] else inside

def shellName (always escaping : Bool) (t : Text) : Text :=
  if escaping then
    if t.any isUnshown then '\'' :: quotedFrom false t ++ ['\'']
    else if always || needsQuotes t then quoted t else t
  else if always || needsQuotes t then
    if t.contains '\'' && !t.contains '"' then '"' :: t ++ ['"']
    else '\'' :: t.flatMap (fun c => if c == '\'' then ['\'', '\\', '\'', '\''] else [c]) ++ ['\'']
  else t

def ListPlan.nameText (p : ListPlan) (t : Text) : Text :=
  match p.quoting with
  | .literal => if p.masking then t.map fun c => if isUnshown c then '?' else c else t
  | .shell always escaping => shellName always escaping t
  | .double => escapedName true t
  | .escaped => escapedName false t
  | .cited => cited t

def ListPlan.indicator (p : ListPlan) (entry : Entry) (mode : Nat) : Text :=
  match p.indicators, entry with
  | .none, _ => []
  | _, .dir => ['/']
  | .slashes, _ => []
  | _, .link _ => ['@']
  | _, .stream _ => ['|']
  | .all, .file _ _ | .all, .program _ => if mode &&& 0o111 ≠ 0 then ['*'] else []
  | _, _ => []

/-! ### Sizes -/

/-- A size with one digit after the point if it is small, rounded up, and the letter of its unit. -/
def humanSize (base size : Nat) : Text :=
  let letters : Text := (if base = 1000 then "kMGTPEZY" else "KMGTPEZY").toList
  let rec unit : Nat → Nat → Nat → Nat × Nat
    | 0, power, i => (power, i)
    | fuel + 1, power, i => if size < power * base then (power, i) else unit fuel (power * base) (i + 1)
  let (power, i) := unit 8 1 0
  if i = 0 then ofNat size
  else
    let tenths := (size * 10 + power - 1) / power
    let shown := if tenths < 100 then ofNat (tenths / 10) ++ '.' :: ofNat (tenths % 10)
      else ofNat ((size + power - 1) / power)
    if shown = ofNat base ∧ i < 8 then "1.0".toList ++ [letters.getD i 'Y'] else shown ++ [letters.getD (i - 1) 'K']

def ListPlan.sizeText (p : ListPlan) (unit size : Nat) : Text :=
  match p.human with
  | some base => humanSize base size
  | none => ofNat ((size + unit - 1) / unit) ++ p.unitMark

def ListPlan.blockText (p : ListPlan) (item : Listed) : Text :=
  if item.unknown then ['?'] else p.sizeText p.blockUnit item.diskSize

/-! ### Several names on a line -/

/-- What stands in front of a name and after it on a line with several names. -/
def ListPlan.short (p : ListPlan) (blockWidth : Nat) (item : Listed) : Text :=
  let inode := if p.inodes then (if item.unknown then ['?', ' '] else ['1', ' ']) else []
  let blocks := if p.blocks then padLeft blockWidth (p.blockText item) ++ [' '] else []
  inode ++ blocks ++ p.nameText item.name ++ p.indicator item.entry item.mode

def columnOf (byColumns : Bool) (count columns i : Nat) : Nat :=
  if byColumns then i / ((count + columns - 1) / columns) else i % columns

def columnWidths (byColumns : Bool) (line : Nat) (lengths : List Nat) (columns : Nat) : Option (List Nat) :=
  let count := lengths.length
  let widths := lengths.zipIdx.foldl
    (fun (widths : List Nat) (length, i) =>
      let column := columnOf byColumns count columns i
      let width := length + if column + 1 = columns then 0 else 2
      widths.modify column (max width))
    (List.replicate columns 3)
  if widths.foldl (· + ·) 0 < line then some widths else none

def gap (tab : Nat) : Nat → Nat → Nat → Text
  | 0, _, _ => []
  | fuel + 1, start, stop =>
    if stop ≤ start then []
    else if tab ≠ 0 ∧ (start + 1) / tab < stop / tab then
      '\t' :: gap tab fuel (start + tab - start % tab) stop
    else ' ' :: gap tab fuel (start + 1) stop

def inColumns (byColumns : Bool) (line tab : Nat) (stop : Char) (names : List Text) : Text :=
  let lengths := names.map List.length
  let most := min (line / 3 + if line % 3 = 0 then 0 else 1) names.length
  let choices := ((List.range most).map (· + 1)).reverse
  let widths := (choices.findSome? fun n =>
    if n = 1 then none else columnWidths byColumns line lengths n).getD [0]
  let columns := max 1 widths.length
  let rows := (names.length + columns - 1) / columns
  let items := names.toArray
  (List.range rows).flatMap fun row =>
    let indices := (List.range columns).filterMap fun column =>
      let i := if byColumns then row + column * rows else row * columns + column
      if i < items.size then some (column, i) else none
    let (text, _, _) := indices.foldl
      (fun (text, position, reached) (column, i) =>
        let name := items.getD i []
        let start := gap tab (position + 1) reached position
        (text ++ start ++ name, position + widths.getD column 0, position + name.length))
      (([], 0, 0) : Text × Nat × Nat)
    text ++ [stop]

def withMarks (mark : Char) (line : Nat) (stop : Char) (names : List Text) : Text :=
  match names with
  | [] => []
  | first :: rest =>
    let (pieces, _) := rest.foldl
      (fun (pieces, position) name =>
        if line = 0 ∨ position + name.length + 2 < line then
          (name :: [mark, ' '] :: pieces, position + name.length + 2)
        else (name :: [mark, stop] :: pieces, name.length))
      (([first], first.length) : List Text × Nat)
    pieces.reverse.flatten ++ [stop]

/-! ### All that is known -/

def kindLetter : Entry → Char
  | .dir => 'd'
  | .file _ _ | .program _ => '-'
  | .link _ => 'l'
  | .sink | .full | .endless => 'c'
  | .stream _ => 'p'

/-- The columns of a line: what they hold, and whether they are filled up at the left. -/
def ListPlan.fields (p : ListPlan) (timeForm : Option Text) (now : Int) (item : Listed) : List (Text × Bool) :=
  let person (wanted : Bool) : List (Text × Bool) :=
    if !wanted then []
    else [(if item.unknown then ['?'] else if p.numeric then ['0'] else "root".toList, p.numeric)]
  let known (t : Text) : Text := if item.unknown then ['?'] else t
  let time :=
    let moment := Moment.ofTime item.time
    let halfYear : Int := 31556952 / 2 * 1000000
    let isRecent := now - halfYear < item.time ∧ item.time ≤ now
    let form := match timeForm with
      | some form =>
        let (old, new) := (form.takeWhile (· != '\n'), (form.dropWhile (· != '\n')).drop 1)
        if isRecent && form.contains '\n' then new else old
      | none => (if isRecent then "%b %e %H:%M" else "%b %e  %Y").toList
    moment.format form
  let size := match item.entry with
    | .sink => "1, 3".toList
    | .endless => "1, 5".toList
    | .full => "1, 7".toList
    | _ => p.sizeText p.sizeUnit item.size
  (if p.inodes then [(known ['1'], true)] else []) ++
  (if p.blocks then [(p.blockText item, true)] else []) ++
  [(kindLetter item.entry :: (if item.unknown then List.replicate 9 '?' else modeLetters item.mode), false),
    (known (ofNat item.names), true)] ++
  person p.owner ++ person p.group ++ person p.author ++ [(known size, true), (known time, true)]

/-- One name on a line, with all that is known.  The columns are as wide as for all items of `measured`. -/
def ListPlan.longLines (p : ListPlan) (timeForm : Option Text) (now : Int) (measured items : List Listed) :
    Text :=
  let rows := items.map fun item => (p.fields timeForm now item, item)
  let widths := (measured.map (p.fields timeForm now)).foldl
    (fun (widths : List Nat) fields =>
      fields.zipIdx.map fun ((t, _), i) => max t.length (widths.getD i 0))
    []
  rows.flatMap fun (fields, item) =>
    let start := fields.zipIdx.flatMap fun ((t, right), i) =>
      let width := widths.getD i 0
      (if right then padLeft width t else padRight width t) ++ [' ']
    let name := match item.target with
      | some (target, there) =>
        let mark := match there with
          | some (entry, mode) => p.indicator entry mode
          | none => []
        p.nameText item.name ++ " -> ".toList ++ p.nameText target ++ mark
      | none => p.nameText item.name ++ p.indicator item.entry item.mode
    start ++ name ++ [p.stop]

/-! ### Orders -/

def endingOf (t : Text) : Text :=
  if t.contains '.' then '.' :: (t.reverse.takeWhile (· != '.')).reverse else []

def ListPlan.compare (p : ListPlan) (a b : Listed) : Ordering :=
  let byName := fun () => textOrder a.name b.name
  match p.order.getD .name with
  | .name | .none => byName ()
  | .time => thenOrder (intOrder b.time a.time) byName
  | .size => thenOrder (natOrder b.size a.size) byName
  | .ending => thenOrder (textOrder (endingOf a.name) (endingOf b.name)) byName
  | .version => thenOrder (versionOrder a.name b.name) byName
  | .width => thenOrder (natOrder (p.nameText a.name).length (p.nameText b.name).length) byName

def ListPlan.sorted (p : ListPlan) (items : List Listed) : List Listed :=
  if p.order = some .none then items
  else
    let le (a b : Listed) : Bool :=
      let order := p.compare a b
      (if p.backwards then flipped order else order) != .gt
    let items := items.mergeSort le
    if p.dirsFirst then items.filter (·.leadsToDir) ++ items.filter (!·.leadsToDir) else items

/-! ### Directories -/

def ListPlan.lists (p : ListPlan) (t : Text) : Bool :=
  (p.hidden || t.head? != some '.') && !p.ignored.any (fitsGlob · t) &&
    (p.hidden || !p.unlisted.any (fitsGlob · t))

def ListPlan.lineLength (p : ListPlan) : Run Nat := do
  match p.width with
  | some width => return width
  | none =>
    let columns := (((← get).vars.lookup "COLUMNS".toList).bind Variable.value).bind natOf?
    return columns.getD 80

/-- The form of times that a word means: for old ones, and for others if that differs. -/
def timeForm? (word : Text) : Option (Option Text) :=
  match word with
  | '+' :: form => some (some form)
  | _ =>
    match String.ofList word with
    | "full-iso" => some (some "%Y-%m-%d %H:%M:%S.%N %z".toList)
    | "long-iso" => some (some "%Y-%m-%d %H:%M".toList)
    | "iso" => some (some "%Y-%m-%d \n%m-%d %H:%M".toList)
    | "locale" | "posix-full-iso" | "posix-long-iso" | "posix-iso" | "posix-locale" => some none
    | _ => none

def ListPlan.display (p : ListPlan) (measured items : List Listed) : Run Unit := do
  let line ← p.lineLength
  let timeForm := (p.timeStyle.bind timeForm?).getD none
  let blockWidth := measured.foldl (fun n item => max n (p.blockText item).length) 0
  let names := items.map (p.short blockWidth)
  match p.form.getD .lines with
  | .long => say (p.longLines timeForm (timeAt (← get).clock) measured items)
  | .lines => say (names.flatMap (· ++ [p.stop]))
  | .commas => say (withMarks ',' line p.stop (items.map (p.short 0)))
  | .columns => if !names.isEmpty then
      say (if line = 0 then withMarks ' ' 0 p.stop names else inColumns true line p.tab p.stop names)
  | .rows => if !names.isEmpty then
      say (if line = 0 then withMarks ' ' 0 p.stop names else inColumns false line p.tab p.stop names)

/-- What a path names, if that can be found out; links are followed as far as the rule says. -/
def ListPlan.itemAt (p : ListPlan) (isOperand : Bool) (shown path : Text) : Run (Except OsError Listed) := do
  let tree := (← get).tree
  let rule := p.links.getD
    (if p.plain || p.indicators == .all || p.form == some .long then .never else .operands)
  let found := match rule with
    | .always => tree.locate (toPath path)
    | .never => tree.placeOf (toPath path)
    | .operands =>
      if !isOperand then tree.placeOf (toPath path)
      else if p.links.isSome || tree.isDir (toPath path) then
        match tree.locate (toPath path) with
        | .ok loc => .ok loc
        | .error _ => tree.placeOf (toPath path)
      else tree.placeOf (toPath path)
  return found.map (listedAt tree shown)

/-- Does the listing show more of the items in a directory than their names? -/
def ListPlan.looksAtItems (p : ListPlan) : Bool :=
  p.form == some .long || p.blocks || p.inodes || p.recursive || p.dirsFirst || p.indicators != .none ||
    p.order == some .time || p.order == some .size

/-- Shows what a directory holds, and what those below it hold if that is asked for; `fuel` bounds the
depth.  `first` says that nothing was shown before. -/
def listDirectory (name : Text) (p : ListPlan) (headed : Bool) :
    Nat → Text → Location → Nat × Bool → Run (Nat × Bool)
  | 0, _, _, state => return state
  | fuel + 1, path, loc, (status, first) => do
    if headed || p.recursive then
      say ((if first then [] else [p.stop]) ++ p.nameText path ++ [':', p.stop])
    let tree := (← get).tree
    let names := ((tree.namesAt loc).map ofString).filter p.lists
    let names := if p.order = some .none then names else names.mergeSort textLe
    let dots := if p.dots then [['.'], ['.', '.']].filter (fun t => !p.ignored.any (fitsGlob · t)) else []
    let (items, status) ← (dots ++ names).foldlM
      (fun (items, status) last => do
        let inner := if path = ['.'] then last else inDirectory path last
        match ← (if p.looksAtItems then p else { p with links := none }).itemAt false last inner with
        | .ok item => return (item :: items, status)
        | .error e =>
          toolSays name (because ("cannot access ".toList ++ quoted inner) e)
          let item := listedAt tree last (loc ++ [toName last])
          return ({ item with unknown := true, target := none } :: items, max status 1))
      (([], status) : List Listed × Nat)
    let items := p.sorted items.reverse
    if p.form = some .long || p.blocks then
      let total := items.foldl (fun n item => n + if item.unknown then 0 else item.diskSize) 0
      say ("total ".toList ++ p.sizeText p.blockUnit total ++ [p.stop])
    p.display items items
    if !p.recursive then return (status, false)
    let inner := items.filter fun item =>
      item.entry == .dir && item.name != ['.'] && item.name != ['.', '.']
    inner.foldlM
      (fun state item => listDirectory name p headed fuel (inDirectory path item.name) item.loc state)
      (status, false)

def maxListDepth : Nat := 1000

/-! ### Options -/

def quotingWords : List (List String × NameQuoting) :=
  [(["literal"], .literal), (["shell"], .shell false false), (["shell-always"], .shell true false),
    (["shell-escape"], .shell false true), (["shell-escape-always"], .shell true true), (["c"], .double),
    (["c-maybe"], .double), (["escape"], .escaped), (["locale"], .cited), (["clocale"], .double)]

def timeFormRefusal (word : Text) : Text :=
  "invalid argument ".toList ++ cited word ++
    (" for 'time style'\nValid arguments are:\n  - [posix-]full-iso\n  - [posix-]long-iso\n" ++
      "  - [posix-]iso\n  - [posix-]locale\n  - +FORMAT (e.g., +%H:%M) for a 'date'-style format").toList

def whenWords : List (List String × Bool) :=
  [(["always", "yes", "force"], true), (["never", "no", "none"], false), (["auto", "tty", "if-tty"], false)]

def ListPlan.flag (p : ListPlan) (key : String) : ListPlan :=
  match key with
  | "a" => { p with hidden := true, dots := true }
  | "A" => { p with hidden := true, dots := false }
  | "b" => { p with quoting := .escaped }
  | "B" => { p with ignored := p.ignored ++ ["*~".toList, ".*~".toList] }
  | "C" => { p with form := some .columns }
  | "d" => { p with plain := true }
  | "f" =>
    { p with hidden := true, dots := true, order := some .none, blocks := false,
             form := if p.form = some .long then none else p.form }
  | "F" => { p with indicators := .all }
  | "g" => { p with form := some .long, owner := false }
  | "G" => { p with group := false }
  | "h" => { p with human := some 1024 }
  | "si" => { p with human := some 1000 }
  | "H" => { p with links := some .operands }
  | "i" => { p with inodes := true }
  | "l" => { p with form := some .long }
  | "L" => { p with links := some .always }
  | "m" => { p with form := some .commas }
  | "n" => { p with form := some .long, numeric := true }
  | "N" => { p with quoting := .literal }
  | "o" => { p with form := some .long, group := false }
  | "p" => { p with indicators := .slashes }
  | "q" => { p with masking := true }
  | "show-control-chars" => { p with masking := false }
  | "Q" => { p with quoting := .double }
  | "r" => { p with backwards := true }
  | "R" => { p with recursive := true }
  | "s" => { p with blocks := true }
  | "S" => { p with order := some .size }
  | "t" => { p with order := some .time }
  | "U" => { p with order := some .none }
  | "v" => { p with order := some .version }
  | "x" => { p with form := some .rows }
  | "X" => { p with order := some .ending }
  | "1" => if p.form = some .long then p else { p with form := some .lines }
  | "author" => { p with author := true }
  | "file-type" => { p with indicators := .types }
  | "full-time" => { p with form := some .long, timeStyle := some "full-iso".toList }
  | "group-directories-first" => { p with dirsFirst := true }
  | "zero" =>
    { p with stop := lineEnd true, quoting := .literal, masking := false,
             form := if p.form = some .long then p.form else some .lines }
  | _ => p

def listSetting (p : ListPlan) (key : String) (value : Text) : Except (Text × Bool) ListPlan :=
  let choose {α : Type} (what : String) (groups : List (List String × α)) (use : α → ListPlan) :
      Except (Text × Bool) ListPlan :=
    match choiceOf what groups value with
    | .ok choice => .ok (use choice)
    | .error text => .error (text, true)
  match key with
  | "I" => .ok { p with ignored := p.ignored ++ [value] }
  | "hide" => .ok { p with unlisted := p.unlisted ++ [value] }
  | "w" =>
    match sizeOf "" value with
    | .ok width => .ok { p with width := some width }
    | .error _ => .error ("invalid line width: ".toList ++ cited value, false)
  | "T" =>
    match sizeOf "" value with
    | .ok tab => .ok { p with tab }
    | .error _ => .error ("invalid tab size: ".toList ++ cited value, false)
  | "sort" =>
    choose "--sort"
      [(["none"], ListOrder.none), (["time"], .time), (["size"], .size), (["extension"], .ending),
        (["version"], .version), (["width"], .width)] fun order => { p with order := some order }
  | "time" =>
    choose "--time"
      [(["atime", "access", "use"], ()), (["ctime", "status"], ()), (["mtime", "modification"], ()),
        (["birth", "creation"], ())] fun _ => p
  | "format" =>
    choose "--format"
      [(["verbose", "long"], ListForm.long), (["commas"], .commas), (["horizontal", "across"], .rows),
        (["vertical"], .columns), (["single-column"], .lines)] fun form => { p with form := some form }
  | "indicator-style" =>
    choose "--indicator-style"
      [(["none"], Indicators.none), (["slash"], .slashes), (["file-type"], .types), (["classify"], .all)]
      fun indicators => { p with indicators }
  | "classify" =>
    if value.isEmpty then .ok { p with indicators := .all }
    else choose "--classify" whenWords fun wanted => if wanted then { p with indicators := .all } else p
  | "color" => if value.isEmpty then .ok p else choose "--color" whenWords fun _ => p
  | "hyperlink" => if value.isEmpty then .ok p else choose "--hyperlink" whenWords fun _ => p
  | "quoting-style" => choose "--quoting-style" quotingWords fun quoting => { p with quoting }
  | "time-style" => .ok { p with timeStyle := some value }
  | "block-size" =>
    let digits := if value.head? = some '\'' then value.drop 1 else value
    let isBare := digits.head?.any (!·.isDigit)
    let mark := match digits with
      | [c, 'B'] => [if c = 'K' then 'k' else c, 'B']
      | _ => digits
    match sizeOf "KMGTPEZY0" digits with
    | .ok (unit + 1) =>
      .ok { p with human := none, sizeUnit := unit + 1, blockUnit := unit + 1,
                   unitMark := if isBare then mark else [] }
    | _ =>
      if value = "human-readable".toList then .ok { p with human := some 1024 }
      else if value = "si".toList then .ok { p with human := some 1000 }
      else
        let start := if isBare || digits.all Char.isDigit then "invalid --block-size argument "
          else "invalid suffix in --block-size argument "
        .error (start.toList ++ cited value, false)
  | _ => .ok (p.flag key)

def listSpec : OptionSpec :=
  { flags := "abcdfghiklmnopqrstuvxABCDFGHLNQRSUXZ1", valued := "wIT",
    long := [.same "all" 'a', .same "escape" 'b', .same "directory" 'd', .same "dired" 'D', .flag "full-time",
      .flag "group-directories-first", .same "human-readable" 'h', .same "inode" 'i', .same "kibibytes" 'k',
      .same "numeric-uid-gid" 'n', .same "no-group" 'G', .same "hide-control-chars" 'q', .same "reverse" 'r',
      .same "size" 's', .same "width" 'w', .same "almost-all" 'A', .same "ignore-backups" 'B',
      .attached "classify", .flag "file-type", .flag "si", .flag "dereference-command-line-symlink-to-dir",
      .same "dereference-command-line" 'H', .valued "hide", .same "ignore" 'I', .valued "indicator-style",
      .same "dereference" 'L', .same "literal" 'N', .same "quote-name" 'Q', .valued "quoting-style",
      .same "recursive" 'R', .valued "format", .flag "show-control-chars", .valued "sort",
      .same "tabsize" 'T', .valued "time", .valued "time-style", .flag "zero", .attached "color",
      .attached "hyperlink", .valued "block-size", .same "context" 'Z', .flag "author"] }

def lsTool : Utility := fun _ name args =>
  withSettings listSpec 2 name args {} listSetting fun p o => do
    if p.form = some .long then
      match p.timeStyle with
      | some word =>
        if (timeForm? word).isNone then
          toolSays name (timeFormRefusal word)
          seeHelp name
          return 2
      | none => pure ()
    let operands := if o.operands.isEmpty then [['.']] else o.operands
    let (items, status) ← operands.foldlM
      (fun (items, status) path => do
        match ← p.itemAt true path path with
        | .ok item => return (item :: items, status)
        | .error e =>
          toolSays name (because ("cannot access ".toList ++ quoted path) e)
          return (items, 2))
      (([], 0) : List Listed × Nat)
    let items := p.sorted items.reverse
    let isListed (item : Listed) : Bool := !p.plain && item.entry == .dir
    let files := items.filter (!isListed ·)
    let dirs := items.filter isListed
    if !files.isEmpty then p.display items files
    let headed := !files.isEmpty || 1 < operands.length || 1 < dirs.length
    let (status, _) ← dirs.foldlM
      (fun state item => listDirectory name p headed maxListDepth item.name item.loc state)
      (status, files.isEmpty)
    return status

end Amalgam.Script
