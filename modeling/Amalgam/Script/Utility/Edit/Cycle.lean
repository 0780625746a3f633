import Amalgam.FileTree.Edit
import Amalgam.Script.Utility.Edit

/-!
# Editing texts

For every line the steps are taken from the first one on, until the last one or one that ends the **cycle**;
then the line is shown, and what was to be shown after it.
-/

namespace Amalgam.Script

/-- What is shown at the end of a cycle. -/
inductive Queued where
  | text (t : Text)
  | file (path : Text)

inductive Feed where
  | line (text : Text) (full : Bool)
  | file (path : Text)
  | missing (path : Text) (cause : OsError)
  | unreadable (path : Text) (cause : OsError)
  deriving DecidableEq

/-- How far the lines of a range have been taken. -/
inductive Progress where
  | outside
  /-- Past its end.  A range that starts at a numbered line does not start again. -/
  | past
  /-- Inside, up to a line if its number is known. -/
  | inside (stop : Option Nat)
  deriving DecidableEq

structure Editor where
  line : Text := []
  full : Bool := true
  held : Text := []
  heldFull : Bool := true
  number : Nat := 0
  input : List Feed := []
  source : Text := ['-']
  /-- What was said about files, the last first, and the status that this leads to. -/
  notes : List Text := []
  status : Nat := 0
  shown : List Text := []
  endless : Bool := false
  queue : List Queued := []
  replaced : Bool := false
  progress : List Progress := []
  /-- What was written to files, the first one first. -/
  written : List (Text × Text) := []
  lastSearch : Option Finder := none
  /-- An expression was to be used again, and none had been used. -/
  lost : Bool := false
  stopped : Bool := false
  /-- The files whose next line was shown, once for every line. -/
  tapped : List Text := []

structure EditPlan where
  steps : List EditStep
  /-- Lines are shown only if a step asks for it. -/
  quiet : Bool
  files : Text → Text
  /-- How many characters of a line are shown at most where all are to be seen. -/
  width : Nat := 70
  stop : Char := '\n'

def linesAndEnds (stop : Char) (t : Text) : List (Text × Bool) :=
  (piecesWithEnds stop t).map fun line =>
    if line.getLast? = some stop then (line.dropLast, true) else (line, false)

/-- What is done with the output of a command. -/
inductive CommandUse where
  | shown
  | line
  /-- It takes the place of the line, which is shown and written to a file as a substitution asks for it. -/
  | substituted (shows : Bool) (target : Option Text)

inductive Onward where
  | step (index : Nat)
  /-- The cycle ends, and the line is shown or not. -/
  | done (shows : Bool)
  /-- The next cycle starts with what is left of the line. -/
  | again
  | quit (shows : Bool) (status : Nat)
  /-- A command is run; then the step with a number follows. -/
  | execute (command : Text) (use : CommandUse) (index : Nat)

namespace Editor

/-! ### Output -/

/-- Shows a text after what was shown before, which gets an end if it has none. -/
def showPiece (plan : EditPlan) (ed : Editor) (t : Text) (endless : Bool) : Editor :=
  { ed with shown := (if ed.endless then plan.stop :: t else t) :: ed.shown, endless }

def display (plan : EditPlan) (ed : Editor) (t : Text) (full : Bool) : Editor :=
  ed.showPiece plan (if full then t ++ [plan.stop] else t) (!full)

def displayLines (plan : EditPlan) (ed : Editor) (t : Text) : Editor :=
  ed.showPiece plan t (!t.isEmpty && t.getLast? != some '\n')

def writeTo (plan : EditPlan) (ed : Editor) (path t : Text) (full : Bool) : Editor :=
  let piece := if full then t ++ [plan.stop] else t
  if path = "/dev/stdout".toList then ed.showPiece plan piece (!full)
  else { ed with written := (path, piece) :: ed.written }

def flush (plan : EditPlan) (ed : Editor) : Editor :=
  let showQueued (ed : Editor) : Queued → Editor
    | .text t => ed.displayLines plan t
    | .file path => ed.displayLines plan (plan.files path)
  ed.queue.foldl showQueued { ed with queue := [] }

/-! ### Input -/

def note (ed : Editor) (text : Text) (status : Nat) : Editor :=
  { ed with notes := text :: ed.notes, status }

def missingNote (path : Text) (cause : OsError) : Text :=
  "can't read ".toList ++ because path cause

/-- Opens files up to the next line.  One that cannot be read ends the work. -/
def openNext (ed : Editor) : List Feed → Editor
  | [] => { ed with input := [] }
  | .line text full :: rest => { ed with input := .line text full :: rest }
  | .file path :: rest => openNext { ed with source := path } rest
  | .missing path cause :: rest => openNext (ed.note (missingNote path cause) 2) rest
  | .unreadable path cause :: _ =>
    let title := if path = ['-'] then "stdin".toList else path
    { ed.note ("read error on ".toList ++ because title cause) 4 with input := [], stopped := true }

/-- Opens files to see whether there is another line.  One that cannot be read counts as empty. -/
def peek (ed : Editor) : List Feed → Editor
  | [] => { ed with input := [] }
  | .line text full :: rest => { ed with input := .line text full :: rest }
  | .file path :: rest => peek { ed with source := path } rest
  | .missing path cause :: rest => peek (ed.note (missingNote path cause) 2) rest
  | .unreadable _ _ :: rest => peek ed rest

def isLast (ed : Editor) : Bool × Editor :=
  let ed := ed.peek ed.input
  (ed.input.isEmpty, ed)

/-- Takes the next line, after the line in hand if that is kept; says whether there is one. -/
def readNext (plan : EditPlan) (keep : Bool) (ed : Editor) : Bool × Editor :=
  let ed := (ed.flush plan)
  let ed := ed.openNext ed.input
  match ed.input with
  | .line line full :: input =>
    (true, { ed with
      line := if keep then ed.line ++ plan.stop :: line else line
      full
      input
      number := ed.number + 1
      replaced := if keep then ed.replaced else false })
  | _ => (false, ed)

/-! ### Selecting lines -/

def search (ed : Editor) (s : Search) : Option Finder × Editor :=
  match s.pattern, ed.lastSearch with
  | some regex, _ =>
    let f : Finder := { regex, ignoreCase := s.ignoreCase, multiline := s.multiline }
    (some f, { ed with lastSearch := some f })
  | none, some f => (some f, ed)
  | none, none => (none, { ed with lost := true })

def holds (ed : Editor) : Address → Bool × Editor
  | .line n => (n == ed.number, ed)
  | .every first distance =>
    if distance = 0 then (ed.number == first, ed)
    else (first ≤ ed.number && (ed.number - first) % distance == 0, ed)
  | .last => ed.isLast
  | .matching s =>
    match ed.search s with
    | (some f, ed) => ((f.find? ed.line 0).isSome, ed)
    | (none, ed) => (false, ed)

def afterFirst (ed : Editor) : Limit → Progress × Editor
  | .upTo (.line n) => (if n ≤ ed.number then .past else .inside (some n), ed)
  | .upTo .last =>
    let (last, ed) := ed.isLast
    (if last then .past else .inside none, ed)
  | .upTo _ => (.inside none, ed)
  | .further count => (if count = 0 then .past else .inside (some (ed.number + count)), ed)
  | .multiple n => (if n = 0 then .past else .inside (some (ed.number + n - ed.number % n)), ed)

/-- Does a range start at the line?  One that starts at a numbered line also starts later, if that line was
not seen, but not after its end. -/
def starts (ed : Editor) (first : Address) (limit : Limit) (isPast : Bool) : Bool × Editor :=
  match first, limit with
  | .line n, .upTo (.line m) => (!isPast && n ≤ ed.number && (ed.number == n || ed.number ≤ m), ed)
  | .line n, _ => (!isPast && n ≤ ed.number, ed)
  | _, _ => ed.holds first

/-- Is the line one of those that a step is for, and how does its range go on? -/
def selects (ed : Editor) (selection : Selection) (progress : Progress) : Bool × Progress × Editor :=
  match selection.first, selection.limit with
  | none, _ => (true, .outside, ed)
  | some a, none =>
    let (found, ed) := ed.holds a
    (found, .outside, ed)
  | some a, some limit =>
    match progress with
    | .inside (some stop) =>
      let counted := match limit with
        | .upTo _ => false
        | _ => true
      (counted || ed.number ≤ stop, if stop ≤ ed.number then .past else progress, ed)
    | .inside none =>
      match limit with
      | .upTo b =>
        let (found, ed) := ed.holds b
        (true, if found then .past else progress, ed)
      | _ => (true, progress, ed)
    | _ =>
      let (found, ed) := ed.starts a limit (progress == .past)
      if found then
        let (progress, ed) := ed.afterFirst limit
        (true, progress, ed)
      else (false, progress, ed)

/-! ### Changing lines -/

def cased : Casing → Char → Char
  | .upper, c => c.toUpper
  | .lower, c => c.toLower

def addCased (state : Text × Option Casing × Option Casing) (piece : Text) :
    Text × Option Casing × Option Casing :=
  let (text, casing, first) := state
  let change (c : Char) : Char := (casing.map fun k => cased k c).getD c
  match piece, first with
  | [], _ => state
  | c :: rest, some k => (text ++ cased k c :: rest.map change, casing, none)
  | _, none => (text ++ piece.map change, casing, none)

def standText (line : Text) (m : Match) (stands : List Stand) : Text :=
  let add (state : Text × Option Casing × Option Casing) :
      Stand → Text × Option Casing × Option Casing
    | .char c => addCased state [c]
    | .group 0 => addCased state ((line.drop m.start).take (m.stop - m.start))
    | .group n => addCased state ((m.groups.lookup n).getD [])
    | .casing casing => (state.1, casing, none)
    | .nextCase casing => (state.1, state.2.1, some casing)
  (stands.foldl add ([], none, none)).1

/-- Replaces matches from a place on: the one with a number, or that and all later ones.  Gives the pieces of
the new line, the last first, and says whether there was one. -/
def substituteFrom (f : Finder) (s : Substitution) (line : Text) (chars : Array Char) :
    Nat → Nat → Nat → Option Nat → List Text → Bool → List Text × Bool
  | 0, _, start, _, done, changed => (slice chars start chars.size :: done, changed)
  | fuel + 1, wanted, start, lastEnd, done, changed =>
    match f.findIn? chars start with
    | none => (slice chars start chars.size :: done, changed)
    | some m =>
      let done := slice chars start m.start :: done
      let next := slice chars m.stop (m.stop + 1)
      if m.start = m.stop ∧ lastEnd = some m.start then
        if chars.size ≤ m.stop then (done, changed)
        else substituteFrom f s line chars fuel wanted (m.stop + 1) none (next :: done) changed
      else
        let taken := wanted ≤ 1
        let text := if taken then standText line m s.stands else slice chars m.start m.stop
        let done := text :: done
        let changed := changed || taken
        if taken && !s.all then (slice chars m.stop chars.size :: done, changed)
        else if chars.size ≤ m.stop then (done, changed)
        else if m.start = m.stop then
          substituteFrom f s line chars fuel (wanted - 1) (m.stop + 1) none (next :: done) changed
        else substituteFrom f s line chars fuel (wanted - 1) m.stop (some m.stop) done changed

/-- Shows the line and writes it to a file, as far as that is asked for. -/
def publishLine (plan : EditPlan) (ed : Editor) (shows : Bool) (target : Option Text) : Editor :=
  let ed := if shows then ed.display plan ed.line ed.full else ed
  match target with
  | some path => ed.writeTo plan path ed.line ed.full
  | none => ed

/-- Puts something in place of matches; says whether there were any. -/
def substitute (ed : Editor) (s : Substitution) : Bool × Editor :=
  match ed.search s.search with
  | (none, ed) => (false, ed)
  | (some f, ed) =>
    let (pieces, changed) :=
      substituteFrom f s ed.line ed.line.toArray (2 * ed.line.length + 2) (s.nth.getD 1) 0 none [] false
    if changed then (true, { ed with line := pieces.reverse.flatten, replaced := true }) else (false, ed)

/-- A character as it is written where all characters are to be seen. -/
def visible (c : Char) : Text :=
  if c = '\\' then ['\\', '\\'] else if isUnshown c then unshownText c else [c]

/-- A line with all its characters to be seen, cut after a number of characters. -/
def visibleLine (width : Nat) (line : Text) : Text :=
  let add (state : Text × Nat) (c : Char) : Text × Nat :=
    let piece := visible c
    if 0 < width ∧ width - 1 < state.2 + piece.length then
      (state.1 ++ ['\\', '\n'] ++ piece, piece.length)
    else (state.1 ++ piece, state.2 + piece.length)
  (line.foldl add ([], 0)).1 ++ ['$']

def firstPart (plan : EditPlan) (line : Text) : Text :=
  line.takeWhile (· != plan.stop)

/-! ### Steps -/

/-- The number of the step after the end of the block that starts before a step. -/
def blockEnd (steps : List EditStep) : Nat → Nat → Nat → Nat
  | 0, _, index => index
  | fuel + 1, depth, index =>
    match (steps[index]?).map EditStep.edit with
    | none => index
    | some .openBlock => blockEnd steps fuel (depth + 1) (index + 1)
    | some .closeBlock => if depth = 0 then index + 1 else blockEnd steps fuel (depth - 1) (index + 1)
    | some _ => blockEnd steps fuel depth (index + 1)

def labelIndex (steps : List EditStep) (name : Text) : Nat :=
  if name.isEmpty then steps.length
  else (steps.findIdx? fun step => step.edit == .label name).getD steps.length

/-- Takes a step that is for the line.  `inRange` says that the range of the step goes on. -/
def apply (plan : EditPlan) (index : Nat) (inRange : Bool) (ed : Editor) : Edit → Editor × Onward
  | .openBlock | .closeBlock | .label _ | .nothing => (ed, .step (index + 1))
  | .jump kind name =>
    let target := labelIndex plan.steps name
    match kind with
    | .always => (ed, .step target)
    | .ifReplaced =>
      if ed.replaced then ({ ed with replaced := false }, .step target) else (ed, .step (index + 1))
    | .unlessReplaced =>
      if ed.replaced then ({ ed with replaced := false }, .step (index + 1)) else (ed, .step target)
  | .substitute s =>
    match ed.substitute s with
    | (false, ed) => (ed, .step (index + 1))
    | (true, ed) =>
      if s.runs then (ed, .execute ed.line (.substituted s.shows s.target) (index + 1))
      else (ed.publishLine plan s.shows s.target, .step (index + 1))
  | .execute [] => (ed, .execute ed.line .line (index + 1))
  | .execute command => (ed, .execute command .shown (index + 1))
  | .exchange source target =>
    let pairs := (source.zip target).reverse
    let line := ed.line.map fun c => (pairs.lookup c).getD c
    ({ ed with line }, .step (index + 1))
  | .delete => (ed, .done false)
  | .deleteFirst =>
    if ed.line.contains plan.stop then
      ({ ed with line := (ed.line.dropWhile (· != plan.stop)).drop 1 }, .again)
    else (ed, .done false)
  | .print => (ed.display plan ed.line ed.full, .step (index + 1))
  | .printFirst =>
    (ed.display plan (firstPart plan ed.line) (ed.full || ed.line.contains plan.stop), .step (index + 1))
  | .quit status => (ed, .quit true status)
  | .quitSilently status => (ed, .quit false status)
  | .number => (ed.displayLines plan (asLine (ofNat ed.number)), .step (index + 1))
  | .append text => ({ ed with queue := ed.queue ++ [.text text] }, .step (index + 1))
  | .insert text => (ed.displayLines plan text, .step (index + 1))
  | .change text => (if inRange then ed else ed.displayLines plan text, .done false)
  | .insertFile path => ({ ed with queue := ed.queue ++ [.file path] }, .step (index + 1))
  | .insertLine path =>
    match (linesAndEnds plan.stop (plan.files path))[ed.tapped.count path]? with
    | some (line, _) =>
      ({ ed with queue := ed.queue ++ [.text (asLine line)], tapped := path :: ed.tapped },
        .step (index + 1))
    | none => (ed, .step (index + 1))
  | .writeLine path => (ed.writeTo plan path ed.line ed.full, .step (index + 1))
  | .writeFirst path => (ed.writeTo plan path (firstPart plan ed.line) true, .step (index + 1))
  | .next =>
    match ed.isLast with
    | (true, ed) => (ed, .done true)
    | (false, ed) =>
      let ed := if plan.quiet then ed else ed.display plan ed.line ed.full
      ((ed.readNext plan false).2, .step (index + 1))
  | .nextAppended =>
    match ed.isLast with
    | (true, ed) => (ed, .done true)
    | (false, ed) => ((ed.readNext plan true).2, .step (index + 1))
  | .hold => ({ ed with held := ed.line, heldFull := ed.full }, .step (index + 1))
  | .holdAppended =>
    ({ ed with held := ed.held ++ plan.stop :: ed.line, heldFull := ed.full }, .step (index + 1))
  | .recall => ({ ed with line := ed.held, full := ed.heldFull }, .step (index + 1))
  | .recallAppended =>
    ({ ed with line := ed.line ++ plan.stop :: ed.held, full := ed.heldFull }, .step (index + 1))
  | .swap =>
    ({ ed with line := ed.held, full := ed.heldFull, held := ed.line, heldFull := ed.full },
      .step (index + 1))
  | .clear => ({ ed with line := [] }, .step (index + 1))
  | .display width => (ed.displayLines plan (asLine (visibleLine (width.getD plan.width) ed.line)), .step (index + 1))
  | .fileName => (ed.display plan ed.source true, .step (index + 1))

def takeStep (plan : EditPlan) (index : Nat) (ed : Editor) : Editor × Onward :=
  match plan.steps[index]? with
  | none => (ed, .done true)
  | some step =>
    let before := (ed.progress[index]?).getD .outside
    let (found, after, ed) := ed.selects step.selection before
    let ed := { ed with progress := ed.progress.set index after }
    if found != step.selection.negated then
      let inRange := after ≠ .outside && after ≠ .past
      ed.apply plan index (inRange && !step.selection.negated) step.edit
    else if step.edit = .openBlock then
      (ed, .step (blockEnd plan.steps plan.steps.length 0 (index + 1)))
    else (ed, .step (index + 1))

/-- Takes steps from a number on until the cycle ends; `fuel` bounds their number. -/
def takeSteps (plan : EditPlan) : Nat → Nat → Editor → Editor × Onward
  | 0, _, ed => (ed, .quit false 0)
  | fuel + 1, index, ed =>
    if ed.lost then (ed, .quit false 1)
    else
      match ed.takeStep plan index with
      | (ed, .step index) => takeSteps plan fuel index ed
      | (ed, onward) => (ed, onward)

def finish (plan : EditPlan) (shows : Bool) (ed : Editor) : Editor :=
  let ed := if shows && !plan.quiet then ed.display plan ed.line ed.full else ed
  ed.flush plan

def endLine (plan : EditPlan) (ed : Editor) : Editor :=
  if ed.endless then { ed with shown := [plan.stop] :: ed.shown, endless := false } else ed

inductive Outcome where
  | ended (status : Nat)
  /-- A command is to be run; the cycle goes on with the step that has the number. -/
  | paused (command : Text) (use : CommandUse) (index : Nat)

/-- Runs cycles until there are no lines left, or a step ends the work or runs a command; `fuel` bounds their
number.  `start` is the step that the cycle in hand goes on with; without it, a cycle starts with a new
line. -/
def cycles (plan : EditPlan) : Nat → Option Nat → Editor → Editor × Outcome
  | 0, _, ed => (ed, .ended 0)
  | fuel + 1, start, ed =>
    let (there, ed) := if start.isSome then (true, ed) else ed.readNext plan false
    if !there then (ed, .ended ed.status)
    else
      match ed.takeSteps plan maxTurns (start.getD 0) with
      | (ed, .done shows) => cycles plan fuel none (ed.finish plan shows)
      | (ed, .again) => cycles plan fuel (some 0) (ed.finish plan false)
      | (ed, .quit shows status) =>
        let ed := if shows then (ed.finish plan true).endLine plan else ed
        ({ ed with stopped := true }, .ended (if ed.status = 0 then status else ed.status))
      | (ed, .execute command use index) => (ed, .paused command use index)
      | (ed, .step _) => (ed, .ended 0)

def receive (plan : EditPlan) (ed : Editor) (output : Text) : CommandUse → Editor
  | .shown =>
    let ed := ed.endLine plan
    { ed with shown := output :: ed.shown }
  | .line => { ed with line := withoutEnd output }
  | .substituted shows target => { ed with line := withoutEnd output }.publishLine plan shows target
where
  withoutEnd (t : Text) : Text := if t.getLast? = some plan.stop then t.dropLast else t

end Editor

/-- Runs cycles and the commands between them to the end; `fuel` bounds the number of commands. -/
def runCycles (e : Engine) (plan : EditPlan) : Nat → Option Nat → Editor → Run (Editor × Nat)
  | 0, _, ed => return (ed, 0)
  | fuel + 1, start, ed => do
    match ed.cycles plan maxTurns start with
    | (ed, .ended status) => return (ed, status)
    | (ed, .paused command use index) =>
      runCycles e plan fuel (some index) (ed.receive plan (← shellOutput e command) use)

/-- What steps make of an input, after what `before` has shown: the editor at the end, and the status. -/
def editFeed (e : Engine) (plan : EditPlan) (before : Editor) (input : List Feed) : Run (Editor × Nat) :=
  let start (step : EditStep) : Progress :=
    if step.selection.first = some (.line 0) then .inside none else .outside
  runCycles e plan maxTurns none
    { input, progress := plan.steps.map start, shown := before.shown, endless := before.endless,
      written := before.written, notes := before.notes, status := before.status,
      lastSearch := before.lastSearch }

/-! ### The program -/

/-- The number of the piece of a text that a place is in, and the place in the piece. -/
def placeIn : List Text → Nat → Nat → Nat × Nat
  | piece :: rest, number, place =>
    if place ≤ piece.length ∨ rest.isEmpty then (number, place)
    else placeIn rest (number + 1) (place - piece.length - 1)
  | [], number, place => (number, place)

def refuseSteps (name : Text) (pieces : List Text) (fault : EditFault) : Run Nat := do
  let place := (joinWith '\n' pieces).length - fault.rest.length
  let (number, place) := placeIn pieces 1 place
  toolFails name 1 ("-e expression #".toList ++ ofNat number ++ ", char ".toList ++ ofNat place ++
    ": ".toList ++ fault.text.toList)

def clearTargets (steps : List EditStep) : Run Unit := do
  for path in steps.filterMap EditStep.target? do
    if path ≠ "/dev/stdout".toList then
      let _ ← openFile path .write

def publish (ed : Editor) : Run Unit := do
  say ed.shown.reverse.flatten
  for (path, text) in ed.written.reverse do
    match ← openFile path .append with
    | .ok id => writeChannel id text
    | .error _ => pure ()

/-- The name under which a file is kept as it was: the suffix with the name of the file in place of its
stars, or after the name if it has none. -/
def keptName (suffix path : Text) : Text :=
  if suffix.contains '*' then suffix.flatMap fun c => if c = '*' then path else [c]
  else path ++ suffix

def feedOf (stop : Char) (path : Text) : Except OsError Text → List Feed
  | .ok text => .file path :: (linesAndEnds stop text).map fun (line, full) => .line line full
  | .error .isDirectory => [.unreadable path .isDirectory]
  | .error .badDescriptor => [.unreadable path .badDescriptor]
  | .error cause => [.missing path cause]

/-- Puts a new file with the same rights in place of one.  A link gives way to the file, unless it is to be
followed. -/
def replaceFile (follows : Bool) (path text : Text) : Run Unit := do
  let tree := (← get).tree
  match tree.locate (toPath path), tree.placeOf (toPath path) with
  | .ok loc, .ok place =>
    let place := if follows then loc else place
    let fresh := (tree.erase place).put place (.file (toBytes text) false)
    modify fun s => { s with tree := fresh.setMode place (tree.modeAt loc) }
  | _, _ => return ()

def editInPlace (e : Engine) (plan : EditPlan) (name suffix : Text) (follows : Bool) (files : List Text) :
    Run Nat := do
  let mut status := 0
  for path in files do
    match ← readFile path with
    | .error .isDirectory =>
      toolSays name ("couldn't edit ".toList ++ path ++ ": not a regular file".toList)
      status := 4
    | .error cause =>
      toolSays name ("can't read ".toList ++ because path cause)
      status := 2
    | .ok text =>
      let (ed, code) ← editFeed e plan {} (feedOf plan.stop path (.ok text))
      if !suffix.isEmpty then
        match (← get).tree.move (toPath path) (toPath (keptName suffix path)) with
        | .ok _ =>
          match (← get).tree.write (toPath (keptName suffix path)) (toBytes text) with
          | .ok tree => modify fun s => { s with tree }
          | .error _ => pure ()
        | .error cause => return ← toolFails name 4 ("cannot rename ".toList ++ because path cause)
      replaceFile follows path ed.shown.reverse.flatten
      publish { ed with shown := [] }
      if ed.stopped then return if status = 0 then code else status
  return status

def editInput (path : Text) : Run (Except OsError Text) := do
  if path ≠ ['-'] then readFile path
  else
    match ← channelOf? 0 with
    | none => return .error .badDescriptor
    | some (_, .file loc _ access) =>
      if !access.reads then return .error .badDescriptor
      if (← get).tree.entry? loc = some .dir then return .error .isDirectory
      return .ok (← remaining 0)
    | some (_, .stream _) => return .ok (← remaining 0)

def editBlock : Nat := 4096

/-- Leaves what was read of the standard input behind: everything, or what was used before the work was
ended. -/
def leaveInput (total : Nat) (left : Option Nat) : Run Unit := do
  match left with
  | none =>
    advanceBy 0 total
    noteEnd 0
  | some rest =>
    let used := total - rest
    match ← channelOf? 0 with
    | some (_, .file _ _ _) => advanceBy 0 used
    | _ => advanceBy 0 ((used + editBlock - 1) / editBlock * editBlock)

def feedSize (input : List Feed) : Nat :=
  input.foldl
    (fun n feed =>
      match feed with
      | .line line full => n + line.length + if full then 1 else 0
      | _ => n)
    0

/-- Shows what an editor has said about files, and then what it has shown. -/
def publishAll (name : Text) (ed : Editor) : Run Unit := do
  for text in ed.notes.reverse do
    toolSays name text
  publish ed

def editJoined (e : Engine) (plan : EditPlan) (name : Text) (given : List (Text × Except OsError Text)) :
    Run Nat := do
  let (ed, code) ← editFeed e plan {} (given.flatMap fun (path, content) => feedOf plan.stop path content)
  match given with
  | [(['-'], .ok text)] =>
    leaveInput text.length (if ed.stopped then some (feedSize ed.input) else none)
  | _ =>
    for (path, content) in given do
      if path = ['-'] then leaveInput (content.toOption.getD []).length none
  publishAll name ed
  if ed.lost then
    return ← toolFails name 1 "-e expression #1, char 0: no previous regular expression".toList
  return code

def editSeparately (e : Engine) (plan : EditPlan) (name : Text) (given : List (Text × Except OsError Text)) :
    Run Nat := do
  let mut last : Editor := {}
  for (path, content) in given do
    if path = ['-'] then leaveInput (content.toOption.getD []).length none
    let (ed, code) ← editFeed e plan last (feedOf plan.stop path content)
    last := ed
    if ed.stopped then
      publishAll name ed
      return code
  publishAll name last
  return last.status

def editStream (e : Engine) (plan : EditPlan) (name : Text) (separate : Bool) (files : List Text) :
    Run Nat := do
  let given ← (orStandard files).mapM fun path => do return (path, ← editInput path)
  if separate then editSeparately e plan name given else editJoined e plan name given

/-- The text of the steps that options and operands give, in pieces, and the files that are left. -/
def stepPieces (name : Text) (o : Options) : Run (Except Nat (Option (List Text × List Text))) := do
  let given := o.given.filter fun (key, _) => key == "e" || key == "f"
  if given.isEmpty then
    match o.operands with
    | script :: files => return .ok (some ([script], files))
    | [] => return .ok none
  let mut pieces : List Text := []
  for (letter, value) in given do
    if letter == "e" then pieces := pieces ++ [value]
    else
      match ← readOperand value with
      | .ok text => pieces := pieces ++ [if text.getLast? = some '\n' then text.dropLast else text]
      | .error e => return .error (← toolFails name 1 ("couldn't open file ".toList ++ because value e))
  return .ok (some (pieces, o.operands))

def freePage (path : String) : String :=
  "<https:" ++ "//www.gnu.org/" ++ path ++ ">"

def editUsage (name : Text) : Text :=
  "Usage: ".toList ++ name ++
    (" [OPTION]... \x7bscript-only-if-no-other-script\x7d [input-file]...\n\n" ++
      "  -n, --quiet, --silent\n" ++
      "                 suppress automatic printing of pattern space\n" ++
      "      --debug\n" ++
      "                 annotate program execution\n" ++
      "  -e script, --expression=script\n" ++
      "                 add the script to the commands to be executed\n" ++
      "  -f script-file, --file=script-file\n" ++
      "                 add the contents of script-file to the commands to be executed\n" ++
      "  --follow-symlinks\n" ++
      "                 follow symlinks when processing in place\n" ++
      "  -i[SUFFIX], --in-place[=SUFFIX]\n" ++
      "                 edit files in place (makes backup if SUFFIX supplied)\n" ++
      "  -l N, --line-length=N\n" ++
      "                 specify the desired line-wrap length for the `l' command\n" ++
      "  --posix\n" ++
      "                 disable all GNU extensions.\n" ++
      "  -E, -r, --regexp-extended\n" ++
      "                 use extended regular expressions in the script\n" ++
      "                 (for portability use POSIX -E).\n" ++
      "  -s, --separate\n" ++
      "                 consider files as separate rather than as a single,\n" ++
      "                 continuous long stream.\n" ++
      "      --sandbox\n" ++
      "                 operate in sandbox mode (disable e/r/w commands).\n" ++
      "  -u, --unbuffered\n" ++
      "                 load minimal amounts of data from the input files and flush\n" ++
      "                 the output buffers more often\n" ++
      "  -z, --null-data\n" ++
      "                 separate lines by NUL characters\n" ++
      "      --help     display this help and exit\n" ++
      "      --version  output version information and exit\n\n" ++
      "If no -e, --expression, -f, or --file option is given, then the first\n" ++
      "non-option argument is taken as the sed script to interpret.  All\n" ++
      "remaining arguments are names of input files; if no input files are\n" ++
      "specified, then the standard input is read.\n\n" ++
      "GNU sed home page: " ++ freePage "software/sed/" ++ ".\n" ++
      "General help using GNU software: " ++ freePage "gethelp/" ++ ".\n").toList

def sedTool : Utility := fun e name args =>
  let spec : OptionSpec :=
    { flags := "bnErsuz", valued := "efl", attached := "i",
      long := [.same "binary" 'b', .flag "debug", .same "regexp-extended" 'E', .same "in-place" 'i',
        .same "expression" 'e', .same "file" 'f', .same "line-length" 'l', .same "null-data" 'z',
        .same "zero-terminated" 'z', .same "quiet" 'n', .flag "posix", .same "silent" 'n', .flag "sandbox",
        .same "separate" 's', .same "unbuffered" 'u', .flag "follow-symlinks"] }
  let refuse (text : Text) : Run Nat := do
    toolSays name text
    sayError (editUsage name)
    return 1
  withOptionsOr refuse spec name args fun o => do
    match ← stepPieces name o with
    | .error status => return status
    | .ok none =>
      sayError (editUsage name)
      return 1
    | .ok (some (pieces, files)) =>
      let script := joinWith '\n' pieces
      let style : EditStyle := { extended := o.has 'E' || o.has 'r', confined := o.mentions "sandbox" }
      match readSteps style script with
      | .error fault => refuseSteps name pieces fault
      | .ok steps =>
        match missingLabel? steps with
        | some label => toolFails name 4 ("can't find label for jump to `".toList ++ label ++ ['\''])
        | none =>
          let quiet := o.has 'n' || ['#', 'n'] = script || ['#', 'n', '\n'].isPrefixOf script
          clearTargets steps
          let tree := (← get).tree
          let standard ← if (steps.filterMap EditStep.source?).any (descriptorNamed? tree · == some 0)
            then readAll 0 else pure []
          let content (path : Text) : Text :=
            if descriptorNamed? tree path = some 0 then standard
            else ((tree.read (toPath path)).toOption.map ofBytes).getD []
          let width := ((o.value? 'l').bind natOf?).getD 70
          let plan : EditPlan := { steps, quiet, files := content, width, stop := lineEnd (o.has 'z') }
          if !o.has 'i' then editStream e plan name (o.has 's') files
          else if files.isEmpty then toolFails name 4 "no input files".toList
          else
            editInPlace e plan name ((o.value? 'i').getD []) (o.mentions "follow-symlinks") files

end Amalgam.Script
