import Amalgam.Script.Utility.Copies

/-!
# Times of files

The program that sets the times at which files were changed.
-/

namespace Amalgam.Script

def presentTime : Run Int := do
  return timeAt (← get).clock

structure TouchPlan where
  creates : Bool := true
  /-- Only the time at which a file was read is set. -/
  readOnly : Bool := false
  changeToo : Bool := false
  linkItself : Bool := false
  model : Option Text := none

def touchSetting (p : TouchPlan) (key : String) (value : Text) : Except (Text × Bool) TouchPlan :=
  match key with
  | "a" => .ok { p with readOnly := true }
  | "m" => .ok { p with changeToo := true }
  | "c" => .ok { p with creates := false }
  | "h" => .ok { p with linkItself := true, creates := false }
  | "r" => .ok { p with model := some value }
  | "time" =>
    let choices := [(["atime", "access", "use"], true), (["mtime", "modify"], false)]
    match choiceOf "--time" choices value with
    | .ok true => .ok { p with readOnly := true }
    | .ok false => .ok { p with changeToo := true }
    | .error text => .error (text, true)
  | _ => .ok p

def stampAt (loc : Location) (time : Option Int) : Run Unit :=
  modify fun s =>
    let stamp (tree : FileTree) (place : Location) : FileTree :=
      tree.setTraits place { tree.traitsAt place with changed := time }
    { s with tree := (s.tree.twins loc).foldl stamp s.tree }

/-- Sets the time of what a path names, and makes a file if there is none. -/
def touchPath (name : Text) (p : TouchPlan) (time : Option Int) (path : Text) : Run Nat := do
  if path = ['-'] then return 0
  let tree := (← get).tree
  let found := if p.linkItself then tree.placeOf (toPath path) else tree.locate (toPath path)
  match found with
  | .ok loc =>
    if !p.readOnly || p.changeToo then stampAt loc time
    return 0
  | .error e =>
    if (descriptorNamed? tree path).isSome then return 0
    if !p.creates then
      if e = .notFound && !p.linkItself then return 0
      return ← toolFails name 1 (because ("setting times of ".toList ++ quoted path) e)
    match tree.write (toPath path) [] with
    | .ok made =>
      modify fun s => { s with tree := made }
      if !p.readOnly || p.changeToo then
        match made.locate (toPath path) with
        | .ok loc => stampAt loc time
        | .error _ => pure ()
      return 0
    | .error .isDirectory => toolFails name 1 (because ("setting times of ".toList ++ quoted path) e)
    | .error fault =>
      if path.getLast? = some '/' && e = .notDirectory then
        toolFails name 1 (because ("setting times of ".toList ++ quoted path) e)
      else toolFails name 1 (because ("cannot touch ".toList ++ quoted path) fault)

def touchTool : Utility := fun _ name args =>
  let spec : OptionSpec :=
    { flags := "acfhm", valued := "r",
      long := [.valued "time", .same "no-create" 'c', .same "reference" 'r',
        .same "no-dereference" 'h'] }
  withSettings spec 1 name args {} touchSetting fun p o => do
    let now ← presentTime
    let tree := (← get).tree
    let model : Except OsError (Option Int) := match p.model with
      | none => .ok none
      | some path => (tree.locate (toPath path)).map fun loc => some (changeTime tree loc)
    match model with
    | .error e =>
      toolFails name 1 (because ("failed to get attributes of ".toList ++ quoted (p.model.getD [])) e)
    | .ok base =>
      if o.operands.isEmpty then return ← misused name 1 "missing file operand".toList
      forOperands o.operands (touchPath name p (some (base.getD now)))

end Amalgam.Script
