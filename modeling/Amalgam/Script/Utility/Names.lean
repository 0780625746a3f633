import Amalgam.Script.Utility.Copies

/-!
# Names and paths

Programs that take paths apart and follow them.
-/

namespace Amalgam.Script

/-! ### Parts of paths -/

def withoutEnding (ending t : Text) : Text :=
  let cut := t.length - ending.length
  if ending.length < t.length && t.drop cut = ending then t.take cut else t

def basenameTool : Utility := fun _ name args =>
  let spec : OptionSpec :=
    { flags := "az", valued := "s", leading := true,
      long := [.same "multiple" 'a', .same "suffix" 's', .same "zero" 'z'] }
  withOptions spec 1 name args fun o => do
    let stop := lineEnd (o.has 'z')
    let shown (ending path : Text) : Text :=
      let last := lastName path
      (if last = ['/'] then last else withoutEnding ending last) ++ [stop]
    match o.operands with
    | [] => misused name 1 "missing operand".toList
    | first :: rest =>
      if o.has 'a' || o.has 's' then
        say ((first :: rest).flatMap (shown ((o.value? 's').getD [])))
        return 0
      match rest with
      | [] =>
        say (shown [] first)
        return 0
      | [ending] =>
        say (shown ending first)
        return 0
      | _ :: extra :: _ => misused name 1 ("extra operand ".toList ++ cited extra)

def dirnameOf (path : Text) : Text :=
  let trimmed := (path.reverse.dropWhile (· == '/')).dropWhile (· != '/')
  match (trimmed.dropWhile (· == '/')).reverse with
  | [] => if path.head? = some '/' then ['/'] else ['.']
  | dir => dir

def dirnameTool : Utility := fun _ name args =>
  withOptions { flags := "z", long := [.same "zero" 'z'] } 1 name args fun o => do
    if o.operands.isEmpty then return ← misused name 1 "missing operand".toList
    say (o.operands.flatMap fun path => dirnameOf path ++ [lineEnd (o.has 'z')])
    return 0

/-! ### Following paths -/

/-- How much of a path has to be there. -/
inductive PathDemand where
  | all
  | allButLast
  | nothing
  deriving DecidableEq, Repr

/-- The location that steps lead to, where what is not there is taken as it is written; `fuel` bounds the
number of links. -/
def lenientGoal (tree : FileTree) : Nat → Location → List String → Location
  | 0, loc, _ => loc
  | fuel + 1, loc, steps =>
    match steps with
    | [] => loc
    | step :: rest =>
      if staysHere step then lenientGoal tree fuel loc rest
      else if step = ".." then lenientGoal tree fuel loc.dropLast rest
      else
        match tree.entry? (loc ++ [step]) with
        | some (.link target) =>
          let start := if (Path.mk target).isAbsolute then [] else loc
          lenientGoal tree fuel start ((Path.mk target).steps ++ rest)
        | _ => lenientGoal tree fuel (loc ++ [step]) rest

/-- The location of a path without links and dots, as far as it has to be there. -/
def fullLocation (tree : FileTree) (demand : PathDemand) (path : Text) : Except OsError Location :=
  let p := toPath path
  if path.isEmpty then .error .notFound
  else
    match demand with
    | .nothing => .ok (lenientGoal tree (p.steps.length + 1000) (tree.origin p) p.steps)
    | .allButLast =>
      match tree.walk .follow p with
      | .ok (.found loc) => .ok loc
      | .ok (.vacant parent name) => .ok (parent ++ [name])
      | .error e => .error e
    | .all => FileTree.Spot.location (tree.walk .follow p)

def locationText (loc : Location) : Text :=
  ofString (Path.ofLocation loc).text

def demandOf (o : Options) (usual : Option PathDemand) : Option PathDemand :=
  match o.lastOf? ["f", "e", "m", "E"] with
  | some ("e", _) => some .all
  | some ("m", _) => some .nothing
  | some _ => some .allButLast
  | none => usual

def readlinkTool : Utility := fun _ name args =>
  let spec : OptionSpec :=
    { flags := "efmnqsvz",
      long := [.same "canonicalize" 'f', .same "canonicalize-existing" 'e', .same "canonicalize-missing" 'm',
        .same "no-newline" 'n', .same "quiet" 'q', .same "silent" 's', .same "verbose" 'v', .same "zero" 'z'] }
  withOptions spec 1 name args fun o => do
    let tree := (← get).tree
    if o.operands.isEmpty then return ← misused name 1 "missing operand".toList
    let bare := o.has 'n' && o.operands.length = 1
    if o.has 'n' && !bare then
      toolSays name "ignoring --no-newline with multiple arguments".toList
    let speaks := ((o.lastOf? ["q", "s", "v"]).map Prod.fst) == some "v"
    forOperands o.operands fun path => do
      let shown : Except OsError Text :=
        match demandOf o none with
        | some demand => (fullLocation tree demand path).map locationText
        | none =>
          match tree.placeOf (toPath path) with
          | .error e => .error e
          | .ok loc => match tree.entry? loc with
            | some (.link target) => .ok (ofString target)
            | _ => .error .invalidArgument
      match shown with
      | .ok t =>
        say (if bare then t else t ++ [lineEnd (o.has 'z')])
        return 0
      | .error e => if speaks then toolFails name 1 (because (shownName path) e) else return 1

def realpathTool : Utility := fun _ name args =>
  let spec : OptionSpec :=
    { flags := "eLmPqsz",
      long := [.same "canonicalize-existing" 'e', .same "canonicalize-missing" 'm', .valued "relative-to",
        .valued "relative-base", .same "quiet" 'q', .same "strip" 's', .same "no-symlinks" 's',
        .same "zero" 'z', .same "logical" 'L', .same "physical" 'P'] }
  withOptions spec 1 name args fun o => do
    let tree := (← get).tree
    if o.operands.isEmpty then return ← misused name 1 "missing operand".toList
    let demand := (demandOf o none).getD .allButLast
    let written := o.has 's'
    let find (path : Text) : Except OsError Location :=
      if !written then fullLocation tree demand path
      else if path.isEmpty then .error .notFound
      else
        let p := toPath path
        let loc := p.steps.foldl
          (fun loc step => if staysHere step then loc else if step = ".." then loc.dropLast else loc ++ [step])
          (tree.origin p)
        let isThere := (tree.entry? loc).isSome
        let isBelowFile := match tree.entry? loc.dropLast with
          | some .dir | none => false
          | some _ => true
        let wantsDir := path.getLast? = some '/' || p.steps.getLast? = some "."
        if demand = .nothing then .ok loc
        else if loc ≠ [] && isBelowFile then .error .notDirectory
        else if wantsDir && isThere && !tree.isDir p then .error .notDirectory
        else if demand = .all && !isThere then .error .notFound
        else .ok loc
    let base? := o.named? "relative-base"
    let start? := (o.named? "relative-to").orElse fun _ => base?
    let locate (path : Option Text) : Except (Text × OsError) (Option Location) :=
      match path with
      | none => .ok none
      | some path =>
        match find path with
        | .ok loc => .ok (some loc)
        | .error e => .error (path, e)
    match locate start?, locate base? with
    | .error (path, e), _ | _, .error (path, e) => toolFails name 1 (because (shownName path) e)
    | .ok start, .ok base =>
      let inBase (loc : Location) : Bool := match base with
        | some base => base.isPrefixOf loc
        | none => true
      forOperands o.operands fun path => do
        match find path with
        | .error e => if o.has 'q' then return 1 else toolFails name 1 (because (shownName path) e)
        | .ok loc =>
          let shown := match start with
            | some start => if inBase loc && inBase start then wayBetween start loc else locationText loc
            | none => locationText loc
          say (shown ++ [lineEnd (o.has 'z')])
          return 0

end Amalgam.Script
