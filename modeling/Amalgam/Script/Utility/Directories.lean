import Amalgam.FileTree.Edit
import Amalgam.Script.Mode
import Amalgam.Script.Utility

/-!
# Making and removing

Programs that make directories and remove files and directories.
-/

namespace Amalgam.Script

/-- Does something for each operand; the status is the greatest one. -/
def forOperands (operands : List Text) (body : Text → Run Nat) : Run Nat :=
  operands.foldlM (fun status t => do return max status (← body t)) 0

/-! ### Making directories -/

/-- The paths that lead to a path, from the shortest to the path itself. -/
def leadingPaths (path : Text) : List Text :=
  let pieces := splitAt '/' ((path.reverse.dropWhile (· == '/')).reverse)
  let uppers := (List.range (pieces.length - 1)).map fun n => joinWith '/' (pieces.take (n + 1))
  uppers.filter (!·.isEmpty) ++ [path]

structure DirPlan where
  /-- The rights of the directory that is asked for, if they are said. -/
  mode : Option (List ModeChange) := none
  verbose : Bool := false

/-- The rights of a new directory.  If it is only said that names in it are protected, nobody but its owner
may write to it. -/
def rightsOfNew (mask : Nat) (changes : List ModeChange) : Nat :=
  let mode := applyMode mask true changes 0o777
  let mentioned := changes.foldl (fun bits change => bits ||| change.mentioned) (0 : Nat)
  if mode &&& 0o1000 ≠ 0 ∧ mentioned &&& 0o6777 = 0 then withoutBits mode 0o022 else mode

/-- Makes one directory; its owner may enter and fill it if it is on the way to another one. -/
def makeOneDir (name : Text) (p : DirPlan) (last : Bool) (path : Text) : Run (Except OsError Unit) := do
  let tree := (← get).tree
  let bare := (path.reverse.dropWhile (· == '/')).reverse
  match tree.makeDir (toPath (if bare.isEmpty then path else bare)) with
  | .error e => return .error e
  | .ok made =>
    let change : Option (Nat → Nat) := match p.mode with
      | some changes => if last then some fun _ => rightsOfNew tree.mask changes else none
      | none => none
    let change := if last then change else some (· ||| 0o300)
    let made := match change with
      | some change => (made.changeMode (toPath path) change).toOption.getD made
      | none => made
    modify fun s => { s with tree := made }
    if p.verbose then
      say (asLine (name ++ ": created directory ".toList ++ quoted path))
    return .ok ()

/-- Makes directories that lead to each other, from the shortest path on.  A file that is in the way of a
later one is not a directory. -/
def makeDirsAlong (name : Text) (p : DirPlan) : List Text → Run Nat
  | [] => return 0
  | path :: rest => do
    let tree := (← get).tree
    let refuse (e : OsError) : Run Nat :=
      toolFails name 1 (because ("cannot create directory ".toList ++ quoted path) e)
    if tree.isDir (toPath path) then makeDirsAlong name p rest
    else
      match ← makeOneDir name p rest.isEmpty path with
      | .ok _ => makeDirsAlong name p rest
      | .error .alreadyThere =>
        let dangling := !tree.present (toPath path)
        refuse (if rest.isEmpty || dangling then .alreadyThere else .notDirectory)
      | .error e => refuse e

def mkdirTool : Utility := fun _ name args =>
  let spec : OptionSpec :=
    { flags := "pvZ", valued := "m",
      long := [.attached "context", .same "mode" 'm', .same "parents" 'p', .same "verbose" 'v'] }
  withOptions spec 1 name args fun o => do
    if o.operands.isEmpty then return ← misused name 1 "missing operand".toList
    if (o.named? "context").any (!·.isEmpty) then
      toolSays name "warning: ignoring --context; it requires an SELinux/SMACK-enabled kernel".toList
    let plan : DirPlan := { verbose := o.has 'v' }
    let run (plan : DirPlan) : Run Nat :=
      forOperands o.operands fun path => do
        if o.has 'p' then
          makeDirsAlong name plan (leadingPaths path)
        else
          match ← makeOneDir name plan true path with
          | .ok _ => return 0
          | .error e => toolFails name 1 (because ("cannot create directory ".toList ++ quoted path) e)
    match o.value? 'm' with
    | none => run plan
    | some mode =>
      match readMode? mode with
      | none => toolFails name 1 ("invalid mode ".toList ++ cited mode)
      | some changes => run { plan with mode := some changes }

/-! ### Removing directories -/

def isLinkWithSlash (tree : FileTree) (path : Text) : Bool :=
  let bare := (path.reverse.dropWhile (· == '/')).reverse
  bare.length < path.length &&
    match tree.placeOf (toPath bare) with
    | .ok loc => match tree.entry? loc with
      | some (.link _) => true
      | _ => false
    | .error _ => false

def removeEmpty (tree : FileTree) (path : Text) : Except OsError FileTree :=
  let last := (splitAt '/' ((path.reverse.dropWhile (· == '/')).reverse)).getLast?.getD []
  match tree.placeOf (toPath path) with
  | .error e => .error e
  | .ok loc =>
    if loc = [] then .error .busy
    else if last = ['.'] ∧ tree.entry? loc = some .dir then .error .invalidArgument
    else tree.removeDir (toPath path)

def pathsAbove (path : Text) : List Text :=
  let bare := (path.reverse.dropWhile (· == '/')).reverse
  let pieces := splitAt '/' bare
  ((List.range pieces.length).drop 1).reverse.filterMap fun n =>
    let upper := joinWith '/' (pieces.take n)
    let upper := (upper.reverse.dropWhile (· == '/')).reverse
    if upper.isEmpty then none else some upper

/-- Removes empty directories one after the other, up to one that cannot be removed. -/
def removeUpwards (name : Text) (verbose lenient : Bool) : List Text → Run Nat
  | [] => return 0
  | path :: rest => do
    if verbose then say (asLine (name ++ ": removing directory, ".toList ++ quoted path))
    match removeEmpty (← get).tree path with
    | .ok tree =>
      modify fun s => { s with tree }
      removeUpwards name verbose lenient rest
    | .error e =>
      if lenient && e == .notEmpty then return 0
      toolFails name 1 (because ("failed to remove directory ".toList ++ quoted path) e)

def rmdirTool : Utility := fun _ name args =>
  let spec : OptionSpec :=
    { flags := "pv",
      long := [.flag "ignore-fail-on-non-empty", .same "path" 'p', .same "parents" 'p', .same "verbose" 'v'] }
  withOptions spec 1 name args fun o => do
    if o.operands.isEmpty then return ← misused name 1 "missing operand".toList
    let lenient := o.mentions "ignore-fail-on-non-empty"
    forOperands o.operands fun path => do
      if o.has 'v' then say (asLine (name ++ ": removing directory, ".toList ++ quoted path))
      let tree := (← get).tree
      if isLinkWithSlash tree path && tree.isDir (toPath path) then
        return ← toolFails name 1
          ("failed to remove ".toList ++ quoted path ++ ": Symbolic link not followed".toList)
      match removeEmpty tree path with
      | .ok tree =>
        modify fun s => { s with tree }
        if o.has 'p' then removeUpwards name (o.has 'v') lenient (pathsAbove path) else return 0
      | .error e =>
        if lenient && e == .notEmpty then return 0
        toolFails name 1 (because ("failed to remove ".toList ++ quoted path) e)

/-! ### Removing all kinds of things -/

inductive Asking where
  | never
  | once
  | always
  deriving DecidableEq, Repr

structure Removal where
  recursive : Bool := false
  emptyDirs : Bool := false
  lenient : Bool := false
  verbose : Bool := false
  asking : Asking := .never

def kindText (tree : FileTree) (loc : Location) : String :=
  match tree.entry? loc with
  | some .dir => "directory"
  | some (.file [] _) => "regular empty file"
  | some (.file _ _) | some (.program _) => "regular file"
  | some (.link _) => "symbolic link"
  | some (.stream _) => "fifo"
  | some .sink | some .full | some .endless => "character special file"
  | none => "weird file"

/-- Asks whether the thing at a location is to be removed, if questions are asked. -/
def Removal.agreed (r : Removal) (name path : Text) (loc : Location) : Run Bool := do
  if r.asking ≠ .always then return true
  let kind := kindText (← get).tree loc
  confirms (name ++ ": remove ".toList ++ kind.toList ++ [' '] ++ quoted path ++ "? ".toList)

/-- Removes what is at a location, and all that is below it; `fuel` bounds the depth. -/
def removeAt (name : Text) (r : Removal) : Nat → Text → Location → Run Nat
  | 0, _, _ => return 1
  | fuel + 1, path, loc => do
    let erase (kind : String) : Run Nat := do
      if !(← r.agreed name path loc) then return 0
      modify fun s => { s with tree := s.tree.erase loc }
      if r.verbose then say (asLine (kind.toList ++ quoted path))
      return 0
    if (← get).tree.entry? loc ≠ some .dir then erase "removed "
    else
      let inside := ((← get).tree.namesAt loc).mergeSort (· ≤ ·)
      if inside.isEmpty then erase "removed directory "
      else
        if r.asking = .always then
          let question := name ++ ": descend into directory ".toList ++ quoted path ++ "? ".toList
          if !(← confirms question) then return 0
        let status ← inside.foldlM
          (fun status last => do
            return max status (← removeAt name r fuel (inDirectory path (ofString last)) (loc ++ [last])))
          0
        if ((← get).tree.namesAt loc).isEmpty then return max status (← erase "removed directory ")
        return status

def maxRemoveDepth : Nat := 1000

def removePath (name : Text) (r : Removal) (path : Text) : Run Nat := do
  let tree := (← get).tree
  let refuse (e : OsError) : Run Nat :=
    toolFails name 1 (because ("cannot remove ".toList ++ quoted path) e)
  match tree.placeOf (toPath path) with
  | .error e => if r.lenient && (e == .notFound || e == .notDirectory) then return 0 else refuse e
  | .ok loc =>
    if tree.entry? loc ≠ some .dir then removeAt name r 1 path loc
    else if !r.recursive then
      if !r.emptyDirs then refuse .isDirectory
      else if (tree.namesAt loc).isEmpty then removeAt name r 1 path loc
      else refuse .notEmpty
    else
      let last := lastName path
      if last = ['.'] || last = ['.', '.'] then
        toolFails name 1
          ("refusing to remove '.' or '..' directory: skipping ".toList ++ quoted path)
      else if loc = [] then
        toolSays name ("it is dangerous to operate recursively on ".toList ++ quoted path)
        toolFails name 1 "use --no-preserve-root to override this failsafe".toList
      else if isLinkWithSlash tree path then refuse .notDirectory
      else removeAt name r maxRemoveDepth path loc

def Removal.setting (r : Removal) (key : String) (value : Text) : Except (Text × Bool) Removal :=
  match key with
  | "r" | "R" => .ok { r with recursive := true }
  | "d" => .ok { r with emptyDirs := true }
  | "f" => .ok { r with lenient := true, asking := .never }
  | "v" => .ok { r with verbose := true }
  | "i" => .ok { r with lenient := false, asking := .always }
  | "I" => .ok { r with lenient := false, asking := .once }
  | "interactive" =>
    let choices := [(["never", "no", "none"], Asking.never), (["once"], .once), (["always", "yes"], .always)]
    if value.isEmpty then .ok { r with asking := .always, lenient := false }
    else
      match choiceOf "--interactive" choices value with
      | .ok asking => .ok { r with asking, lenient := r.lenient && asking = .never }
      | .error text => .error (text, true)
  | "preserve-root" =>
    if value.isEmpty || value = "all".toList then .ok r
    else .error ("unrecognized --preserve-root argument: ".toList ++ quoted value, false)
  | _ => .ok r

def rmTool : Utility := fun _ name args => do
  let spec : OptionSpec :=
    { flags := "dfirvIR",
      long := [.same "force" 'f', .attached "interactive", .flag "one-file-system", .flag "no-preserve-root",
        .attached "preserve-root", .same "recursive" 'r', .same "dir" 'd', .same "verbose" 'v'] }
  let tree := (← get).tree
  let refuse (text : Text) : Run Nat := do
    toolSays name text
    let isFile (t : Text) : Bool := t.head? = some '-' && 1 < t.length && isThere tree t
    if let some t := args.find? isFile then
      sayError (asLine ("Try '".toList ++ name ++ " ./".toList ++ shownName t ++ "' to remove the file ".toList ++
        quoted t ++ ['.']))
    seeHelp name
    return 1
  withChecked refuse spec name args
    (fun o => do
      match o.given.foldlM (fun r (key, value) => Removal.setting r key value) ({} : Removal) with
      | .ok r =>
        if o.mentions "no-preserve-root" && !args.contains "--no-preserve-root".toList then
          return .error (← toolFails name 1 "you may not abbreviate the --no-preserve-root option".toList)
        return .ok r
      | .error (text, true) => return .error (← misused name 1 text)
      | .error (text, false) => return .error (← toolFails name 1 text))
    fun r o => do
      if o.operands.isEmpty then
        if r.lenient then return 0 else return ← misused name 1 "missing operand".toList
      let count := o.operands.length
      if r.asking = .once && (r.recursive || 3 < count) then
        let question := name ++ ": remove ".toList ++ ofNat count ++
          (if count = 1 then " argument" else " arguments").toList ++
          (if r.recursive then " recursively? " else "? ").toList
        if !(← confirms question) then return 0
      forOperands o.operands (removePath name r)

end Amalgam.Script
