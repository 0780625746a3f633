import Amalgam.Script.Utility.Directories

/-!
# Changing rights

The program that changes the rights of files.
-/

namespace Amalgam.Script

inductive Telling where
  | nothing
  | changes
  | all
  deriving DecidableEq, Repr

structure RightsPlan where
  letters : Option Text := none
  model : Option Text := none
  recursive : Bool := false
  quiet : Bool := false
  telling : Telling := .nothing

def rightsSetting (p : RightsPlan) (key : String) (value : Text) : Except (Text × Bool) RightsPlan :=
  match key with
  | "R" => .ok { p with recursive := true }
  | "c" => .ok { p with telling := .changes }
  | "f" => .ok { p with quiet := true }
  | "v" => .ok { p with telling := .all }
  | "reference" => .ok { p with model := some value }
  | "no-preserve-root" | "preserve-root" => .ok p
  | letter =>
    let piece := '-' :: letter.toList ++ value
    .ok { p with letters := some (match p.letters with
      | some before => before ++ ',' :: piece
      | none => piece) }

def rightsShown (mode : Nat) : Text :=
  octal 4 mode ++ " (".toList ++ modeLetters mode ++ [')']

/-- Changes the rights of the thing at a location.  `surprises` says that rights are named that stay because
of the mask. -/
def changeRights (name : Text) (p : RightsPlan) (changes : List ModeChange) (surprises : Bool) (path : Text)
    (loc : Location) : Run Nat := do
  let tree := (← get).tree
  let isDir := tree.entry? loc = some .dir
  let old := tree.modeAt loc
  let new := applyMode tree.mask isDir changes old
  modify fun s => { s with tree := (tree.twins loc).foldl (fun tree place => tree.setMode place new) s.tree }
  if p.telling = .all || (p.telling = .changes && new ≠ old) then
    let text := if new = old then "mode of ".toList ++ quoted path ++ " retained as ".toList ++ rightsShown old
      else "mode of ".toList ++ quoted path ++ " changed from ".toList ++ rightsShown old ++ " to ".toList ++
        rightsShown new
    say (asLine text)
  let expected := applyMode 0 isDir changes old
  if surprises && withoutBits new expected ≠ 0 then
    if !p.quiet then
      toolSays name (shownName path ++ ": new permissions are ".toList ++ modeLetters new ++ ", not ".toList ++
        modeLetters expected)
    return 1
  return 0

/-- Changes the rights of a thing and of all that is below it; `fuel` bounds the depth. -/
def changeRightsBelow (name : Text) (p : RightsPlan) (changes : List ModeChange) (surprises : Bool) :
    Nat → Text → Location → Run Nat
  | 0, _, _ => return 1
  | fuel + 1, path, loc => do
    let status ← changeRights name p changes surprises path loc
    if !p.recursive || (← get).tree.entry? loc ≠ some .dir then return status
    let names := ((← get).tree.namesAt loc).mergeSort (· ≤ ·)
    names.foldlM
      (fun status last => do
        let inner := loc ++ [last]
        let path := inDirectory path (ofString last)
        match (← get).tree.entry? inner with
        | some (.link _) =>
          if p.telling = .all then
            say (asLine ("neither symbolic link ".toList ++ quoted path ++
              " nor referent has been changed".toList))
          return status
        | _ => return max status (← changeRightsBelow name p changes surprises fuel path inner))
      status

def maxRightsDepth : Nat := 1000

def changeRightsOf (name : Text) (p : RightsPlan) (changes : List ModeChange) (surprises : Bool)
    (path : Text) : Run Nat := do
  let tree := (← get).tree
  match tree.locate (toPath path) with
  | .error e =>
    if !p.quiet then
      if e = .notFound && isThere tree path then
        toolSays name ("cannot operate on dangling symlink ".toList ++ quoted path)
      else toolSays name (because ("cannot access ".toList ++ quoted path) e)
    if p.telling = .all then say (asLine (quoted path ++ " could not be accessed".toList))
    return 1
  | .ok loc => changeRightsBelow name p changes surprises maxRightsDepth path loc

def chmodTool : Utility := fun _ name args =>
  let spec : OptionSpec :=
    { flags := "Rcfv", attached := "rwxXstugoa,+=01234567",
      long := [.same "changes" 'c', .same "recursive" 'R', .flag "no-preserve-root", .flag "preserve-root",
        .same "quiet" 'f', .valued "reference", .same "silent" 'f', .same "verbose" 'v'] }
  withSettings spec 1 name args {} rightsSetting fun p o => do
    if p.letters.isSome && p.model.isSome then
      return ← misused name 1 "cannot combine mode and --reference options".toList
    let (mode?, paths) : Option Text × List Text := match p.letters, p.model, o.operands with
      | some letters, _, paths => (some letters, paths)
      | none, some _, paths => (none, paths)
      | none, none, mode :: paths => (some mode, paths)
      | none, none, [] => (none, [])
    if paths.isEmpty then
      match p.letters, p.model, mode? with
      | none, none, some mode =>
        return ← misused name 1 ("missing operand after ".toList ++ cited mode)
      | _, _, _ => return ← misused name 1 "missing operand".toList
    match p.model, mode? with
    | some model, _ =>
      match (← get).tree.locate (toPath model) with
      | .error e => toolFails name 1 (because ("failed to get attributes of ".toList ++ quoted model) e)
      | .ok loc =>
        let rights := (← get).tree.modeAt loc
        forOperands paths (changeRightsOf name p [⟨allRights, '=', .bits rights, allRights⟩] false)
    | none, some mode =>
      match readMode? mode with
      | none => misused name 1 ("invalid mode: ".toList ++ cited mode)
      | some changes => forOperands paths (changeRightsOf name p changes p.letters.isSome)
    | none, none => misused name 1 "missing operand".toList

end Amalgam.Script
