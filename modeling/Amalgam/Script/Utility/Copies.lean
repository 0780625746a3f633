import Amalgam.Script.Test
import Amalgam.Script.Utility.Directories

/-!
# Copies, moves and further names

Programs that copy and move files and directories, and that give them further names.
-/

namespace Amalgam.Script

/-! ### Backups -/

/-- How what is in the way is kept under another name. -/
inductive BackupKind where
  | simple
  /-- With a number if there are numbers already. -/
  | existing
  | numbered
  deriving DecidableEq, Repr

def backupKindOf (what : String) (word : Text) : Except Text (Option BackupKind) :=
  choiceOf what
    [(["none", "off"], none), (["simple", "never"], some .simple), (["existing", "nil"], some .existing),
      (["numbered", "t"], some .numbered)] word

def lastBackup (tree : FileTree) (path : Text) : Nat :=
  let dir := path.take (path.length - (path.reverse.takeWhile (· != '/')).length)
  let last := path.drop dir.length
  let names := (tree.names (toPath (if dir.isEmpty then ['.'] else dir))).map ofString
  names.foldl
    (fun n name =>
      let start := last ++ ".~".toList
      if start.isPrefixOf name && name.getLast? = some '~' then
        match natOf? ((name.drop start.length).dropLast) with
        | some k => max n k
        | none => n
      else n)
    0

def backupName (tree : FileTree) (kind : BackupKind) (suffix path : Text) : Text :=
  let bare := if 1 < path.length then (path.reverse.dropWhile (· == '/')).reverse else path
  let last := lastBackup tree bare
  let numbered := bare ++ ".~".toList ++ ofNat (last + 1) ++ ['~']
  match kind with
  | .simple => bare ++ suffix
  | .numbered => numbered
  | .existing => if last = 0 then bare ++ suffix else numbered

/-! ### Plans -/

inductive LinkRule where
  | always
  | operands
  | never
  deriving DecidableEq, Repr

/-- What happens to a file that is in the way. -/
inductive Overwriting where
  | silent
  | asking
  | never
  deriving DecidableEq, Repr

structure CopyPlan where
  recursive : Bool := false
  links : Option LinkRule := none
  keepsMode : Bool := false
  keepsTimes : Bool := false
  overwriting : Overwriting := .silent
  updating : Bool := false
  verbose : Bool := false
  backup : Option BackupKind := none
  suffix : Text := ['~']
  /-- Further names are made instead of copies. -/
  hardLinks : Bool := false
  softLinks : Bool := false
  forced : Bool := false
  removesFirst : Bool := false
  bare : Bool := false
  /-- The whole path of a source is made below the target. -/
  parents : Bool := false
  target : Option Text := none
  /-- The last operand is never the directory that things go to. -/
  plainTarget : Bool := false
  stripsSlashes : Bool := false
  relative : Bool := false
  /-- A link at the end is not taken for the directory it leads to. -/
  keepsLinks : Bool := false

structure CopyLog where
  sources : List Text := []
  made : List Location := []

def withoutSlashes (path : Text) : Text :=
  let bare := (path.reverse.dropWhile (· == '/')).reverse
  if bare.isEmpty then path else bare

def sayCopied (start source target : Text) (backup : Option Text) : Run Unit :=
  say (asLine (start ++ quoted source ++ " -> ".toList ++ quoted target ++
    match backup with
    | some path => " (backup: ".toList ++ quoted path ++ [')']
    | none => []))

/-- May something in the way be replaced?  If it may not, the status is given. -/
def mayReplace (name : Text) (p : CopyPlan) (source place : Location) (target : Text) :
    Run (Except Nat Unit) := do
  let tree := (← get).tree
  if tree.entry? source = some .dir then return .ok ()
  if p.updating && changeTime tree source ≤ changeTime tree place then return .error 0
  match p.overwriting with
  | .silent => return .ok ()
  | .never => return .error 0
  | .asking =>
    if ← confirms (name ++ ": overwrite ".toList ++ quoted target ++ "? ".toList) then return .ok ()
    return .error 1

/-- Gives what is in the way another name, if that is asked for, and says which. -/
def backUp (p : CopyPlan) (target : Text) : Run (Option Text) := do
  match p.backup with
  | none => return none
  | some kind =>
    let tree := (← get).tree
    let path := backupName tree kind p.suffix target
    let cleared := match tree.removeFile (toPath path) with
      | .ok tree => tree
      | .error _ => tree
    match cleared.move (toPath target) (toPath path) with
    | .ok tree =>
      modify fun s => { s with tree }
      return some path
    | .error _ => return none

def isLink (tree : FileTree) (path : Text) : Bool :=
  match tree.placeOf (toPath path) with
  | .ok loc => match tree.entry? loc with
    | some (.link _) => true
    | _ => false
  | .error _ => false

/-! ### Copies -/

def copyTraits (p : CopyPlan) (source : Location) (target : Text) : Run Unit := do
  let tree := (← get).tree
  match tree.placeOf (toPath target) with
  | .error _ => return ()
  | .ok place =>
    let tree := if p.keepsMode then tree.setMode place (tree.modeAt source) else tree
    let tree := if p.keepsTimes then
        tree.setTraits place { tree.traitsAt place with changed := (tree.traitsAt source).changed }
      else tree
    modify fun s => { s with tree }

/-- Copies the content of a file; `fresh` says that there is nothing at the target yet. -/
def copyContent (name : Text) (p : CopyPlan) (source target : Text) (loc : Location) (fresh : Bool) :
    Run Nat := do
  let tree := (← get).tree
  match ← readFile source with
  | .error e => toolFails name 1 (because ("cannot open ".toList ++ quoted source ++ " for reading".toList) e)
  | .ok text =>
    let text := if p.bare then [] else text
    if let some fd := descriptorNamed? tree target then
      let _ ← writeTo fd text
      return 0
    if fresh && isLink tree target then
      return ← toolFails name 1 ("not writing through dangling symlink ".toList ++ quoted target)
    let content := toBytes text
    if tree.entryAt? (toPath target) = some .full ∧ !content.isEmpty then
      return ← toolFails name 1 (because ("error writing ".toList ++ quoted target) .noSpace)
    let written := if p.bare && !fresh then .ok tree else tree.write (toPath target) content
    match written with
    | .error e =>
      let e := if e = .isDirectory ∧ target.getLast? = some '/' then .notDirectory else e
      toolFails name 1 (because ("cannot create regular file ".toList ++ quoted target) e)
    | .ok after =>
      let rights := tree.modeAt loc &&& 0o777
      let after := if fresh then
          (after.changeMode (toPath target) fun _ => withoutBits rights tree.mask).toOption.getD after
        else after
      modify fun s => { s with tree := after }
      copyTraits p loc target
      return 0

def copyLeaf (name : Text) (p : CopyPlan) (source target : Text) (loc : Location) (fresh : Bool) : Run Nat := do
  let tree := (← get).tree
  if p.hardLinks then
    let tree := if p.forced && !fresh then (tree.removeFile (toPath target)).toOption.getD tree else tree
    match tree.join loc (toPath target) with
    | .ok tree =>
      modify fun s => { s with tree }
      return 0
    | .error e =>
      toolFails name 1 (because ("cannot create hard link ".toList ++ quoted target ++ " to ".toList ++
        quoted source) e)
  else if p.softLinks then
    if source.head? ≠ some '/' && (withoutSlashes target).contains '/' then
      return ← toolFails name 1
        (shownName target ++ ": can make relative symbolic links only in current directory".toList)
    let tree := if p.forced && !fresh then (tree.removeFile (toPath target)).toOption.getD tree else tree
    match tree.makeLink (toName source) (toPath target) with
    | .ok tree =>
      modify fun s => { s with tree }
      return 0
    | .error e =>
      toolFails name 1 (because ("cannot create symbolic link ".toList ++ quoted target ++ " to ".toList ++
        quoted source) e)
  else
    match tree.entry? loc with
    | some (.link way) =>
      match tree.makeLink way (toPath target) with
      | .ok tree =>
        modify fun s => { s with tree }
        return 0
      | .error e => toolFails name 1 (because ("cannot create symbolic link ".toList ++ quoted target) e)
    | _ => copyContent name p source target loc fresh

/-- What is decided about a target before something is copied to it. -/
structure TargetState where
  fresh : Bool
  backup : Option Text := none

/-- Looks at what is at a target, and clears the way.  If nothing is to be copied, the status is given. -/
def clearWay (name : Text) (p : CopyPlan) (isOperand : Bool) (source target : Text) (loc : Location)
    (log : CopyLog) : Run (Except Nat TargetState) := do
  let tree := (← get).tree
  let isRegular := match tree.entry? loc with
    | some (.link _) | some .dir => false
    | _ => true
  let unfollowed := !isRegular || p.softLinks || p.hardLinks || p.backup.isSome || p.removesFirst
  let spot := tree.spot (if unfollowed then .stay else .follow) (toPath target)
  match spot with
  | .error .notFound | .ok (.vacant _ _) => return .ok { fresh := true }
  | .error e => return .error (← toolFails name 1 (because ("cannot stat ".toList ++ quoted target) e))
  | .ok (.found place) =>
    let toDir := tree.entry? place = some .dir
    let isDir := tree.entry? loc = some .dir
    if (tree.twins loc).contains place && !isDir then
      if p.hardLinks then return .error 0
      return .error (← toolFails name 1
        (quoted source ++ " and ".toList ++ quoted target ++ " are the same file".toList))
    match ← mayReplace name p loc place target with
    | .error status => return .error status
    | .ok _ =>
      if !toDir && isDir then
        return .error (← toolFails name 1 ("cannot overwrite non-directory ".toList ++ quoted target ++
          " with directory ".toList ++ quoted source))
      if !toDir && isOperand && p.backup ≠ some .numbered && log.made.contains place then
        return .error (← toolFails name 1 ("will not overwrite just-created ".toList ++ quoted target ++
          " with ".toList ++ quoted source))
      if toDir && !isDir then
        return .error (← toolFails name 1
          ("cannot overwrite directory ".toList ++ quoted target ++ " with non-directory".toList))
      if toDir then return .ok { fresh := false }
      if p.backup.isSome then
        let backup ← backUp p target
        return .ok { fresh := true, backup }
      if p.removesFirst || !isRegular then
        match tree.removeFile (toPath target) with
        | .ok tree =>
          modify fun s => { s with tree }
          if p.verbose then say (asLine ("removed ".toList ++ quoted target))
          return .ok { fresh := true }
        | .error e =>
          return .error (← toolFails name 1 (because ("cannot remove ".toList ++ quoted target) e))
      return .ok { fresh := false }

def CopyLog.note (log : CopyLog) (target : Text) : Run CopyLog := do
  match (← get).tree.placeOf (toPath target) with
  | .ok place => return { log with made := place :: log.made }
  | .error _ => return log

/-- Copies what a path names; `top` are the operands that it belongs to, and `fuel` bounds the depth. -/
def copyPath (name : Text) (p : CopyPlan) (top : Text × Text) :
    Nat → Bool → Text → Text → CopyLog → Run (Nat × CopyLog)
  | 0, _, _, _, log => return (1, log)
  | fuel + 1, isOperand, source, target, log => do
    let tree := (← get).tree
    let rule := p.links.getD (if p.recursive then .never else .always)
    let follows := rule == .always || (rule == .operands && isOperand)
    let found := if follows then tree.locate (toPath source) else tree.placeOf (toPath source)
    match found with
    | .error e => return (← toolFails name 1 (because ("cannot stat ".toList ++ quoted source) e), log)
    | .ok loc =>
      let isDir := tree.entry? loc = some .dir
      if isDir && !p.recursive then
        return (← toolFails name 1 ("-r not specified; omitting directory ".toList ++ quoted source), log)
      if isOperand && !isDir && p.backup.isNone && log.sources.contains source then
        toolSays name ("warning: source file ".toList ++ quoted source ++ " specified more than once".toList)
        return (0, log)
      let log := if isOperand then { log with sources := source :: log.sources } else log
      match ← clearWay name p isOperand source target loc log with
      | .error status => return (status, log)
      | .ok way =>
        if !isDir then
          if p.verbose then sayCopied [] source target way.backup
          let status ← copyLeaf name p source target loc way.fresh
          return (status, ← log.note target)
        let made ←
          if way.fresh then
            match (← get).tree.makeDir (toPath target) with
            | .ok after =>
              let rights := withoutBits (tree.modeAt loc &&& 0o777) tree.mask
              let after := (after.changeMode (toPath target) fun _ => rights).toOption.getD after
              modify fun s => { s with tree := after }
              if p.verbose then sayCopied [] source target none
              pure none
            | .error e => pure (some e)
          else pure none
        match made with
        | some e =>
          return (← toolFails name 1 (because ("cannot create directory ".toList ++ quoted target) e), log)
        | none =>
          let log ← if way.fresh then log.note target else pure log
          let names := ((← get).tree.namesAt loc).mergeSort (· ≤ ·)
          let (status, log) ← names.foldlM
            (fun (status, log) last => do
              let inner := inDirectory source (ofString last)
              if log.made.contains (loc ++ [last]) && (← get).tree.entry? (loc ++ [last]) = some .dir then
                let status ← toolFails name 1 ("cannot copy a directory, ".toList ++ quoted top.1 ++
                  ", into itself, ".toList ++ quoted top.2)
                return (status, log)
              let (one, log) ← copyPath name p top fuel false inner (inDirectory target (ofString last)) log
              return (max status one, log))
            ((0, log) : Nat × CopyLog)
          copyTraits p loc target
          return (status, log)

def maxCopyDepth : Nat := 1000

/-! ### Moves -/

def moveFault (source target : Text) (e : OsError) : Text :=
  match e with
  | .alreadyThere | .isDirectory | .noSpace | .notEmpty =>
    because ("cannot overwrite ".toList ++ quoted target) e
  | .invalidArgument =>
    "cannot move ".toList ++ quoted source ++ " to a subdirectory of itself, ".toList ++ quoted target
  | _ => because ("cannot move ".toList ++ quoted source ++ " to ".toList ++ quoted target) e

def movePath (name : Text) (p : CopyPlan) (source target : Text) (log : CopyLog) : Run (Nat × CopyLog) := do
  let tree := (← get).tree
  match tree.placeOf (toPath source) with
  | .error e => return (← toolFails name 1 (because ("cannot stat ".toList ++ quoted source) e), log)
  | .ok loc =>
    let isDir := tree.entry? loc = some .dir
    let rename (backup : Option Text) : Run (Nat × CopyLog) := do
      let tree := (← get).tree
      let toNowhere := target.getLast? = some '/' && !isDir && !tree.present (toPath target)
      let moved := if toNowhere then
          match tree.spot .stay (toPath target) with
          | .error e => .error e
          | .ok _ => .error .notDirectory
        else tree.move (toPath source) (toPath target)
      match moved with
      | .ok tree =>
        modify fun s => { s with tree }
        if p.verbose then sayCopied "renamed ".toList source target backup
        return (0, ← log.note target)
      | .error e => return (← toolFails name 1 (moveFault source target e), log)
    match tree.spot .stay (toPath target) with
    | .error .notFound | .ok (.vacant _ _) => rename none
    | .error e => return (← toolFails name 1 (because ("cannot stat ".toList ++ quoted target) e), log)
    | .ok (.found place) =>
      let toDir := tree.entry? place = some .dir
      if loc = place then
        return (← toolFails name 1
          (quoted source ++ " and ".toList ++ quoted target ++ " are the same file".toList), log)
      match ← mayReplace name p loc place target with
      | .error status => return (status, log)
      | .ok _ =>
        if !toDir && isDir && p.backup.isNone then
          return (← toolFails name 1 ("cannot overwrite non-directory ".toList ++ quoted target ++
            " with directory ".toList ++ quoted source), log)
        if !toDir && p.backup ≠ some .numbered && log.made.contains place then
          return (← toolFails name 1 ("will not overwrite just-created ".toList ++ quoted target ++
            " with ".toList ++ quoted source), log)
        if toDir && !isDir && p.backup.isNone then
          return (← toolFails name 1
            ("cannot overwrite directory ".toList ++ quoted target ++ " with non-directory".toList), log)
        let backup ← backUp p target
        if (tree.twins loc).contains place && backup.isNone then
          modify fun s => { s with tree := s.tree.erase loc }
          return (0, log)
        rename backup

/-! ### Sources and targets -/

def dirFault? (tree : FileTree) (unfollowed : Bool) (path : Text) : Option OsError :=
  let found := if unfollowed then tree.placeOf (toPath path) else tree.locate (toPath path)
  match found with
  | .error e => some e
  | .ok loc => if tree.entry? loc = some .dir then none else some .notDirectory

/-- The directory that sources go to, and the sources; or one source and its target. -/
inductive Destination where
  | into (dir : Text) (sources : List Text)
  | onto (source target : Text)

/-- Finds out where things go.  If the operands are wrong, the status is given. -/
def destinationOf (name : Text) (p : CopyPlan) (operands : List Text) (alone : Bool) :
    Run (Except Nat Destination) := do
  let tree := (← get).tree
  match operands, p.target with
  | [], _ => return .error (← misused name 1 "missing file operand".toList)
  | first :: rest, some dir =>
    if p.plainTarget then
      return .error (← misused name 1
        "cannot combine --target-directory (-t) and --no-target-directory (-T)".toList)
    match dirFault? tree false dir with
    | some e => return .error (← toolFails name 1 (because ("target directory ".toList ++ quoted dir) e))
    | none => return .ok (.into dir (first :: rest))
  | [one], none =>
    if alone && !p.plainTarget then return .ok (.into ['.'] [one])
    return .error (← misused name 1 ("missing destination file operand after ".toList ++ quoted one))
  | first :: second :: rest, none =>
    if p.plainTarget then
      match rest with
      | extra :: _ => return .error (← misused name 1 ("extra operand ".toList ++ quoted extra))
      | [] => return .ok (.onto first second)
    let last := (second :: rest).getLast?.getD []
    match dirFault? tree p.keepsLinks last with
    | none => return .ok (.into last operands.dropLast)
    | some e =>
      if rest.isEmpty then return .ok (.onto first second)
      return .error (← toolFails name 1 (because ("target ".toList ++ quoted last) e))

def toDestination (p : CopyPlan) (d : Destination) (body : Text → Text → CopyLog → Run (Nat × CopyLog)) :
    Run Nat := do
  let trimmed (t : Text) : Text := if p.stripsSlashes then withoutSlashes t else t
  match d with
  | .onto source target => return (← body (trimmed source) target {}).1
  | .into dir sources =>
    let (status, _) ← sources.foldlM
      (fun (status, log) source => do
        let source := trimmed source
        let last := lastName source
        let target := if last = ['.', '.'] then dir else inDirectory dir last
        let (one, log) ← body source target log
        return (max status one, log))
      ((0, {}) : Nat × CopyLog)
    return status

/-! ### Options -/

def CopyPlan.common (p : CopyPlan) (key : String) (value : Text) : Except (Text × Bool) CopyPlan :=
  match key with
  | "v" => .ok { p with verbose := true }
  | "t" =>
    if p.target.isSome then .error ("multiple target directories specified".toList, false)
    else .ok { p with target := some value }
  | "T" => .ok { p with plainTarget := true }
  | "S" => .ok { p with suffix := value, backup := some (p.backup.getD .existing) }
  | "b" => .ok { p with backup := some (p.backup.getD .existing) }
  | "backup" =>
    if value.isEmpty then .ok { p with backup := some (p.backup.getD .existing) }
    else
      match backupKindOf "backup type" value with
      | .ok backup => .ok { p with backup }
      | .error text => .error (text, true)
  | "strip-trailing-slashes" => .ok { p with stripsSlashes := true }
  | _ => .ok p

def CopyPlan.keeping (p : CopyPlan) (what : String) (kept : Bool) (value : Text) :
    Except (Text × Bool) CopyPlan :=
  let choices : List (List String × Nat) :=
    [(["mode"], 0), (["timestamps"], 1), (["ownership"], 2), (["links"], 3), (["context"], 4), (["xattr"], 5),
      (["all"], 6)]
  (splitAt ',' value).foldlM
    (fun p word =>
      match choiceOf what choices word with
      | .error text => .error (text, true)
      | .ok 0 => .ok { p with keepsMode := kept }
      | .ok 1 => .ok { p with keepsTimes := kept }
      | .ok 6 => .ok { p with keepsMode := kept, keepsTimes := kept }
      | .ok _ => .ok p)
    p

def copySetting (p : CopyPlan) (key : String) (value : Text) : Except (Text × Bool) CopyPlan :=
  match key with
  | "a" => .ok { p with recursive := true, links := some .never, keepsMode := true, keepsTimes := true }
  | "d" | "P" => .ok { p with links := some .never }
  | "H" => .ok { p with links := some .operands }
  | "L" => .ok { p with links := some .always }
  | "R" | "r" => .ok { p with recursive := true }
  | "f" => .ok { p with forced := true }
  | "i" => .ok { p with overwriting := .asking }
  | "n" => .ok { p with overwriting := .never }
  | "l" => .ok { p with hardLinks := true }
  | "s" => .ok { p with softLinks := true }
  | "u" => .ok { p with updating := true }
  | "p" => .ok { p with keepsMode := true, keepsTimes := true }
  | "preserve" =>
    if value.isEmpty then .ok { p with keepsMode := true, keepsTimes := true }
    else p.keeping "--preserve" true value
  | "no-preserve" => p.keeping "--no-preserve" false value
  | "attributes-only" => .ok { p with bare := true }
  | "remove-destination" => .ok { p with removesFirst := true }
  | "parents" => .ok { p with parents := true }
  | _ => p.common key value

/-- Makes the directories above the target of a source whose whole path is copied. -/
def makeParents (name : Text) (p : CopyPlan) (dir source : Text) : Run Nat := do
  let uppers := (pathsAbove source).reverse
  uppers.foldlM
    (fun status upper => do
      let target := inDirectory dir (upper.dropWhile (· == '/'))
      let tree := (← get).tree
      if tree.isDir (toPath target) then return status
      match tree.makeDir (toPath target) with
      | .ok tree =>
        modify fun s => { s with tree }
        if p.verbose then say (asLine (upper ++ " -> ".toList ++ target))
        return status
      | .error e => toolFails name 1 (because ("cannot make directory ".toList ++ quoted target) e))
    0

def cpTool : Utility := fun _ name args =>
  let spec : OptionSpec :=
    { flags := "abdfHilLnprsuvxPRTZ", valued := "St",
      long := [.same "archive" 'a', .flag "attributes-only", .attached "backup", .flag "copy-contents",
        .same "dereference" 'L', .same "force" 'f', .same "interactive" 'i', .same "link" 'l',
        .same "no-clobber" 'n', .same "no-dereference" 'P', .valued "no-preserve",
        .same "no-target-directory" 'T', .same "one-file-system" 'x', .flag "parents", .attached "preserve",
        .same "recursive" 'R', .flag "remove-destination", .valued "sparse", .attached "reflink",
        .flag "strip-trailing-slashes", .same "suffix" 'S', .same "symbolic-link" 's',
        .same "target-directory" 't', .same "update" 'u', .same "verbose" 'v', .attached "context"] }
  withSettings spec 1 name args {} copySetting fun p o => do
    if p.hardLinks && p.softLinks then
      return ← misused name 1 "cannot make both hard and symbolic links".toList
    match ← destinationOf name p o.operands false with
    | .error status => return status
    | .ok d =>
      match d, p.parents with
      | .onto _ _, true => misused name 1 "with --parents, the destination must be a directory".toList
      | .into dir _, true =>
        toDestination p d fun source _ log => do
          let status ← makeParents name p dir source
          let target := inDirectory dir (withoutSlashes (source.dropWhile (· == '/')))
          let (one, log) ← copyPath name p (source, target) maxCopyDepth true source target log
          return (max status one, log)
      | _, false =>
        toDestination p d fun source target log =>
          copyPath name p (source, target) maxCopyDepth true source target log

def moveSetting (p : CopyPlan) (key : String) (value : Text) : Except (Text × Bool) CopyPlan :=
  match key with
  | "f" => .ok { p with overwriting := .silent }
  | "i" => .ok { p with overwriting := .asking }
  | "n" => .ok { p with overwriting := .never }
  | "u" => .ok { p with updating := true }
  | _ => p.common key value

def mvTool : Utility := fun _ name args =>
  let spec : OptionSpec :=
    { flags := "bfinuvTZ", valued := "St",
      long := [.attached "backup", .same "context" 'Z', .same "force" 'f', .same "interactive" 'i',
        .same "no-clobber" 'n', .same "no-target-directory" 'T', .flag "strip-trailing-slashes",
        .same "suffix" 'S', .same "target-directory" 't', .same "update" 'u', .same "verbose" 'v'] }
  withSettings spec 1 name args {} moveSetting fun p o => do
    match ← destinationOf name p o.operands false with
    | .error status => return status
    | .ok d => toDestination p d (movePath name p)

/-! ### Further names -/

def linkSetting (p : CopyPlan) (key : String) (value : Text) : Except (Text × Bool) CopyPlan :=
  match key with
  | "f" => .ok { p with forced := true, overwriting := .silent }
  | "i" => .ok { p with forced := false, overwriting := .asking }
  | "n" => .ok { p with keepsLinks := true }
  | "s" => .ok { p with softLinks := true }
  | "r" => .ok { p with relative := true }
  | "L" => .ok { p with links := some .always }
  | "P" => .ok { p with links := some .never }
  | _ => p.common key value

def wayBetween (start goal : Location) : Text :=
  let common := ((start.zip goal).takeWhile fun (a, b) => a == b).length
  let ups := List.replicate (start.length - common) ['.', '.']
  match ups ++ (goal.drop common).map ofString with
  | [] => ['.']
  | steps => joinWith '/' steps

def goalOf? (tree : FileTree) (path : Text) : Option Location :=
  match tree.walk .follow (toPath path) with
  | .ok (.found loc) => some loc
  | .ok (.vacant parent last) => some (parent ++ [last])
  | .error _ => none

def linkText (tree : FileTree) (p : CopyPlan) (source target : Text) : Text :=
  if !p.relative then source
  else
    let dir := target.take (target.length - (target.reverse.takeWhile (· != '/')).length)
    match goalOf? tree source, goalOf? tree (if dir.isEmpty then ['.'] else dir) with
    | some goal, some start => wayBetween start goal
    | _, _ => source

def linkPath (name : Text) (p : CopyPlan) (source target : Text) (log : CopyLog) : Run (Nat × CopyLog) := do
  let tree := (← get).tree
  let found := if p.links = some .always then tree.locate (toPath source) else tree.placeOf (toPath source)
  let fault? : Option Text := match p.softLinks, found with
    | true, _ => none
    | false, .error e => some (because ("failed to access ".toList ++ quoted source) e)
    | false, .ok loc =>
      if tree.entry? loc = some .dir then
        some (shownName source ++ ": hard link not allowed for directory".toList)
      else none
  match fault? with
  | some text => return (← toolFails name 1 text, log)
  | none =>
    let text := if p.softLinks then linkText tree p source target else source
    let make (tree : FileTree) : Except OsError FileTree :=
      if p.softLinks then tree.makeLink (toName text) (toPath target)
      else found.bind fun loc => tree.join loc (toPath target)
    let done (tree : FileTree) (backup : Option Text) : Run (Nat × CopyLog) := do
      modify fun s => { s with tree }
      if p.verbose then
        let kept := match backup with
          | some path => quoted path ++ " ~ ".toList
          | none => []
        let arrow := if p.softLinks then " -> " else " => "
        say (asLine (kept ++ quoted target ++ arrow.toList ++ quoted text))
      return (0, ← log.note target)
    let failed (e : OsError) : Run (Nat × CopyLog) := do
      let kind := if p.softLinks then "failed to create symbolic link " else "failed to create hard link "
      let shown := if p.softLinks || e = .alreadyThere || e = .noSpace then quoted target
        else quoted target ++ " => ".toList ++ quoted text
      return (← toolFails name 1 (because (kind.toList ++ shown) e), log)
    match make tree with
    | .ok tree => done tree none
    | .error .alreadyThere =>
      if !p.forced && p.overwriting ≠ .asking && p.backup.isNone then return ← failed .alreadyThere
      match tree.placeOf (toPath target) with
      | .error e => failed e
      | .ok place =>
        if tree.entry? place = some .dir then
          return (← toolFails name 1 (shownName target ++ ": cannot overwrite directory".toList), log)
        let same := match found with
          | .ok loc => (tree.twins loc).contains place
          | .error _ => false
        if same && p.backup.isNone && (!p.softLinks || found.toOption = some place) then
          return (← toolFails name 1
            (quoted source ++ " and ".toList ++ quoted target ++ " are the same file".toList), log)
        if log.made.contains place && p.backup ≠ some .numbered then
          return (← toolFails name 1 ("will not overwrite just-created ".toList ++ quoted target ++
            " with ".toList ++ quoted source), log)
        if p.overwriting = .asking then
          if !(← confirms (name ++ ": replace ".toList ++ quoted target ++ "? ".toList)) then return (1, log)
        let backup ← backUp p target
        let tree := (← get).tree
        let cleared := (tree.removeFile (toPath target)).toOption.getD tree
        match make cleared with
        | .ok tree => done tree backup
        | .error e => failed e
    | .error e => failed e

def lnTool : Utility := fun _ name args =>
  let spec : OptionSpec :=
    { flags := "bdfinrsvFLPT", valued := "St",
      long := [.attached "backup", .same "directory" 'F', .same "no-dereference" 'n',
        .same "no-target-directory" 'T', .same "force" 'f', .same "interactive" 'i', .same "suffix" 'S',
        .same "target-directory" 't', .same "logical" 'L', .same "physical" 'P', .same "relative" 'r',
        .same "symbolic" 's', .same "verbose" 'v'] }
  withSettings spec 1 name args {} linkSetting fun p o => do
    if p.relative && !p.softLinks then
      return ← toolFails name 1 "cannot do --relative without --symbolic".toList
    match ← destinationOf name p o.operands true with
    | .error status => return status
    | .ok d => toDestination p d (linkPath name p)

end Amalgam.Script
