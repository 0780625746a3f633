import Amalgam.FileTree

/-!
# Changes to file trees

Making, removing and moving what stands at a path.  A link at the end of the path is not followed: it is the
link itself that is removed or moved.

## Main definitions

* `FileTree.placeOf` — the location of what a path names, be it a link
* `FileTree.makeDir`, `FileTree.makeLink`
* `FileTree.removeFile`, `FileTree.removeDir`
* `FileTree.move` — a whole subtree at another location
* `FileTree.changeMode`, `FileTree.join` — rights, and further names
-/

namespace Amalgam.FileTree

/-- The location of what a path names; a link at its end is not followed. -/
def placeOf (tree : FileTree) (p : Path) : Except OsError Location :=
  Spot.location (tree.spot .stay p)

/-- Puts an entry at a path where nothing stands yet. -/
def putNew (tree : FileTree) (p : Path) (entry : Entry) : Except OsError FileTree :=
  match tree.spot .stay p with
  | .error e => .error e
  | .ok (.found _) => .error .alreadyThere
  | .ok (.vacant parent name) =>
    .ok ((tree.put (parent ++ [name]) entry).setTraits (parent ++ [name]) { changed := tree.now })

/-- Makes a directory. -/
def makeDir (tree : FileTree) (p : Path) : Except OsError FileTree :=
  match tree.spot .stay p with
  | .error e => .error e
  | .ok (.found _) => .error .alreadyThere
  | .ok (.vacant parent name) => .ok (tree.putFresh (parent ++ [name]) .dir 0o777)

/-- Makes a link. -/
def makeLink (tree : FileTree) (target : String) (p : Path) : Except OsError FileTree :=
  tree.putNew p (.link target)

/-- Removes what is no directory. -/
def removeFile (tree : FileTree) (p : Path) : Except OsError FileTree :=
  match tree.placeOf p with
  | .error e => .error e
  | .ok loc => if tree.entry? loc = some .dir then .error .isDirectory else .ok (tree.erase loc)

/-- Removes an empty directory. -/
def removeDir (tree : FileTree) (p : Path) : Except OsError FileTree :=
  match tree.placeOf p with
  | .error e => .error e
  | .ok loc =>
    if tree.entry? loc ≠ some .dir then .error .notDirectory
    else if (tree.namesAt loc).isEmpty then .ok (tree.erase loc)
    else .error .notEmpty

/-- The entries at a location and below it, with their locations moved to another one. -/
def moved (tree : FileTree) (loc place : Location) : List (Location × Entry) :=
  tree.entries.filterMap fun (other, entry) =>
    if loc.isPrefixOf other then some (place ++ other.drop loc.length, entry) else none

/-- What is known of the things at a location and below it, with their locations moved to another one. -/
def movedTraits (tree : FileTree) (loc place : Location) : List (Location × Traits) :=
  tree.traits.filterMap fun (other, traits) =>
    if loc.isPrefixOf other then some (place ++ other.drop loc.length, traits) else none

/-- Moves what a path names to another path, in place of what is there. -/
def move (tree : FileTree) (source target : Path) : Except OsError FileTree :=
  match tree.placeOf source, tree.spot .stay target with
  | .error e, _ => .error e
  | .ok _, .error e => .error e
  | .ok loc, .ok (.vacant parent name) =>
    if loc.isPrefixOf parent then .error .invalidArgument
    else
      let place := parent ++ [name]
      let rest := tree.erase loc
      .ok { rest with
        entries := rest.entries ++ tree.moved loc place
        traits := rest.traits ++ tree.movedTraits loc place }
  | .ok loc, .ok (.found place) =>
    if loc = place then .ok tree
    else if loc.isPrefixOf place then .error .invalidArgument
    else if tree.entry? loc = some .dir ∧ tree.entry? place ≠ some .dir then .error .notDirectory
    else if tree.entry? loc ≠ some .dir ∧ tree.entry? place = some .dir then .error .isDirectory
    else if tree.entry? place = some .dir ∧ !(tree.namesAt place).isEmpty then .error .notEmpty
    else
      let rest := (tree.erase loc).erase place
      .ok { rest with
        entries := rest.entries ++ tree.moved loc place
        traits := rest.traits ++ tree.movedTraits loc place }

/-- Changes the rights of what a path names. -/
def changeMode (tree : FileTree) (p : Path) (change : Nat → Nat) : Except OsError FileTree :=
  (tree.locate p).map fun loc =>
    (tree.twins loc).foldl (fun tree place => tree.setMode place (change (tree.modeAt loc))) tree

/-- Gives the thing at a location another name, at a path where nothing stands yet. -/
def join (tree : FileTree) (loc : Location) (p : Path) : Except OsError FileTree :=
  match tree.entry? loc, tree.spot .stay p with
  | none, _ => .error .notFound
  | some .dir, _ => .error .notPermitted
  | _, .error e => .error e
  | _, .ok (.found _) => .error .alreadyThere
  | some entry, .ok (.vacant parent name) =>
    let traits := tree.traitsAt loc
    let number := traits.identity.getD (tree.traits.foldl (fun n (_, t) => max n (t.identity.getD 0 + 1)) 1)
    let traits := { traits with identity := some number }
    .ok (((tree.put (parent ++ [name]) entry).setTraits loc traits).setTraits (parent ++ [name]) traits)

end Amalgam.FileTree
