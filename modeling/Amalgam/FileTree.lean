import Amalgam.Path
import Amalgam.Text.Utf8

/-!
# File trees

A file tree is data: directories, files with their bytes, symbolic links and devices, each at a **location**,
the names that lead to it from the root.  Looking a path up follows it name by name; a link sends the walk to
its target, at most `maxLinks` times.  Names and paths have a greatest length.  Everything a build reads or
writes goes through this module, so a build is a function of the tree it starts from.

## Main definitions

* `Location`, `Entry`, `Traits`, `FileTree` — the data
* `OsError`, `OsError.message` — why an access fails
* `Ending` — what is done at the last name of a path
* `FileTree.advance`, `FileTree.spot`, `FileTree.locate` — following a path up to the next link, and to its
  end
* `FileTree.canonical?`, `FileTree.canonical` — the path without links and dots
* `FileTree.isDir`, `FileTree.isFile`, `FileTree.present`, `FileTree.names`
* `FileTree.list` — reading the names in a directory, which can fail
* `FileTree.read`, `FileTree.readText`, `FileTree.write`, `FileTree.append`, `FileTree.copy`
* `FileTree.makeDirs`, `FileTree.put`, `FileTree.erase` — building trees by locations
* `FileTree.modeAt`, `FileTree.setMode`, `FileTree.twins` — rights, and files with several names
* `FileTree.placeDir`, `FileTree.place` — building trees by paths
* `FileTree.changes` — the files that differ between two trees
-/

namespace Amalgam

/-- The names that lead from the root to a place. -/
abbrev Location := List String

/-- What stands at a location. -/
inductive Entry where
  | dir
  | file (content : Bytes) (executable : Bool)
  | link (target : String)
  /-- A device that holds nothing and takes all that is written to it. -/
  | sink
  /-- A device that holds nothing and takes nothing. -/
  | full
  /-- A device that never ends and takes all that is written to it. -/
  | endless
  /-- A stream: what is written to it is added to what was written before. -/
  | stream (written : Bytes)
  /-- A program of the system, known by its name. -/
  | program (name : String)
  deriving DecidableEq, Repr

/-- The rights of a thing that has no others. -/
def Entry.usualMode : Entry → Nat
  | dir | file _ true | program _ => 0o755
  | file _ false => 0o644
  | link _ => 0o777
  | sink | full | endless => 0o666
  | stream _ => 0o600

/-- Why an access to a file tree fails. -/
inductive OsError where
  | notPermitted
  | notFound
  | execFormat
  | badDescriptor
  | permissionDenied
  | busy
  | alreadyThere
  | crossDevice
  | notDirectory
  | isDirectory
  | invalidArgument
  | noSpace
  | nameTooLong
  | notEmpty
  | tooManyLinks
  | invalidUtf8
  /-- A path holds the character that ends names. -/
  | nulInName
  /-- The name of a command holds that character. -/
  | nulInCommand
  /-- A directory is to be copied like a file. -/
  | notRegular
  deriving DecidableEq, Repr

namespace OsError

/-- What an error says. -/
def text : OsError → String
  | notPermitted => "Operation not permitted"
  | notFound => "No such file or directory"
  | execFormat => "Exec format error"
  | badDescriptor => "Bad file descriptor"
  | permissionDenied => "Permission denied"
  | busy => "Device or resource busy"
  | alreadyThere => "File exists"
  | crossDevice => "Invalid cross-device link"
  | notDirectory => "Not a directory"
  | isDirectory => "Is a directory"
  | invalidArgument => "Invalid argument"
  | noSpace => "No space left on device"
  | nameTooLong => "File name too long"
  | notEmpty => "Directory not empty"
  | tooManyLinks => "Too many levels of symbolic links"
  | invalidUtf8 => "stream did not contain valid UTF-8"
  | nulInName => "file name contained an unexpected NUL byte"
  | nulInCommand => "nul byte found in provided data"
  | notRegular => "the source path is neither a regular file nor a symlink to a regular file"

/-- The number of an error that the system reports. -/
def number? : OsError → Option Nat
  | notPermitted => some 1
  | notFound => some 2
  | execFormat => some 8
  | badDescriptor => some 9
  | permissionDenied => some 13
  | busy => some 16
  | alreadyThere => some 17
  | crossDevice => some 18
  | notDirectory => some 20
  | isDirectory => some 21
  | invalidArgument => some 22
  | noSpace => some 28
  | nameTooLong => some 36
  | notEmpty => some 39
  | tooManyLinks => some 40
  | invalidUtf8 | nulInName | nulInCommand | notRegular => none

/-- What an error says, with its number. -/
def message (e : OsError) : String :=
  match e.number? with
  | some n => e.text ++ " (os error " ++ Nat.repr n ++ ")"
  | none => e.text

end OsError

/-- What is known of a thing besides what it holds. -/
structure Traits where
  /-- Its rights, if they are not the usual ones. -/
  mode : Option Nat := none
  /-- The time in microseconds at which it was changed last, if that is known. -/
  changed : Option Int := none
  /-- Files with the same number are one file with several names. -/
  identity : Option Nat := none
  /-- Why the names in it cannot be read, if it is a directory and they cannot. -/
  unlisted : Option OsError := none
  deriving DecidableEq, Repr

/-- A tree of files, and the directory from which relative paths start. -/
structure FileTree where
  entries : List (Location × Entry)
  workdir : Location
  /-- The rights that new things do not get. -/
  mask : Nat := 0o022
  /-- The time in microseconds, if it is kept; what is made or changed gets it. -/
  now : Option Int := none
  traits : List (Location × Traits) := []
  deriving DecidableEq, Repr

/-- The absolute path of a location. -/
def Path.ofLocation (loc : Location) : Path :=
  ⟨"/" ++ "/".intercalate loc⟩

/-- The steps a path asks for: its pieces, and an empty one for a slash at the end, which asks for a
directory. -/
def Path.steps (p : Path) : List String :=
  let named := (p.pieces.filter (· != [])).map String.ofList
  if p.text.toList.getLast? = some '/' then named ++ [""] else named

/-- Does the step stay where it is? -/
def staysHere (step : String) : Bool :=
  step == "." || step == ""

namespace FileTree

/-- What stands at a location.  The root is a directory. -/
def entry? (tree : FileTree) (loc : Location) : Option Entry :=
  if loc = [] then some .dir else tree.entries.lookup loc

/-- What is known of the thing at a location. -/
def traitsAt (tree : FileTree) (loc : Location) : Traits :=
  (tree.traits.lookup loc).getD {}

/-! ### Following paths -/

/-- What is done at the last name of a path. -/
inductive Ending where
  /-- A link there is followed. -/
  | follow
  /-- A link there is the thing that is meant. -/
  | stay
  /-- A file may be made there, so a slash must not follow the name. -/
  | create
  deriving DecidableEq, Repr

/-- How far a walk came without following a link. -/
inductive Advance where
  | reached (loc : Location)
  | missing (parent : Location) (name : String) (rest : List String)
  | refused (cause : OsError)
  | link (parent : Location) (target : String) (rest : List String)

/-- The greatest number of bytes of a name. -/
def nameLimit : Nat := 255

/-- The number of bytes that the text of a path stays below. -/
def pathLimit : Nat := 4096

/-- Follows steps from a location up to the next link.  From a directory that has been removed, the way
leads only upwards. -/
def advance (tree : FileTree) (ending : Ending) (loc : Location) : List String → Advance
  | [] => .reached loc
  | step :: rest =>
    let present := tree.entry? loc
    if present ≠ some .dir ∧ present ≠ none then .refused .notDirectory
    else if staysHere step then tree.advance ending loc rest
    else if step = ".." then tree.advance ending loc.dropLast rest
    else if present = none then .refused .notFound
    else if ending = .create ∧ rest = [""] then .refused .isDirectory
    else
      match tree.entry? (loc ++ [step]) with
      | none => if nameLimit < step.utf8ByteSize then .refused .nameTooLong else .missing loc step rest
      | some (.link target) =>
        if ending = .stay ∧ rest = [] then .reached (loc ++ [step]) else .link loc target rest
      | some _ => tree.advance ending (loc ++ [step]) rest

/-- Where a path ends. -/
inductive Spot where
  | found (loc : Location)
  /-- All but the last name is there. -/
  | vacant (parent : Location) (name : String)

/-- How many links one walk may follow. -/
def maxLinks : Nat := 40

/-- Follows steps from a location, through at most `links` links. -/
def follow (tree : FileTree) (ending : Ending) (links : Nat) (loc : Location) (steps : List String) :
    Except OsError Spot :=
  match tree.advance ending loc steps with
  | .reached loc => .ok (.found loc)
  | .missing parent name rest =>
    if rest.all (· == "") then .ok (.vacant parent name) else .error .notFound
  | .refused cause => .error cause
  | .link parent target rest =>
    match links with
    | 0 => .error .tooManyLinks
    | links + 1 =>
      tree.follow ending links (if (Path.mk target).isAbsolute then [] else parent)
        ((Path.mk target).steps ++ rest)

/-- The location from which a path starts. -/
def origin (tree : FileTree) (p : Path) : Location :=
  if p.isAbsolute then [] else tree.workdir

/-- Where a path ends, however long its text is. -/
def walk (tree : FileTree) (ending : Ending) (p : Path) : Except OsError Spot :=
  if p.text.toList.contains (Char.ofNat 0) then .error .nulInName
  else if p.text.isEmpty then .error .notFound
  else tree.follow ending maxLinks (tree.origin p) p.steps

/-- Where a path ends. -/
def spot (tree : FileTree) (ending : Ending) (p : Path) : Except OsError Spot :=
  if p.text.toList.contains (Char.ofNat 0) then .error .nulInName
  else if pathLimit ≤ p.text.utf8ByteSize then .error .nameTooLong
  else tree.walk ending p

/-- The location that a walk found. -/
def Spot.location : Except OsError Spot → Except OsError Location
  | .ok (.found loc) => .ok loc
  | .ok (.vacant _ _) => .error .notFound
  | .error e => .error e

/-- The location of the thing a path names. -/
def locate (tree : FileTree) (p : Path) : Except OsError Location :=
  Spot.location (tree.spot .follow p)

/-- The path without links, dots and repeated slashes, if it names something.  It is found name by name,
so the length of the whole text does not matter.  A stream has no such path: it is not in a directory. -/
def canonical? (tree : FileTree) (p : Path) : Except OsError Path :=
  match Spot.location (tree.walk .follow p) with
  | .error e => .error e
  | .ok loc =>
    match tree.entry? loc with
    | some (.stream _) => .error .notFound
    | _ => .ok (Path.ofLocation loc)

/-- The canonical path, or the path itself if it names nothing. -/
def canonical (tree : FileTree) (p : Path) : Path :=
  match tree.canonical? p with
  | .ok q => q
  | .error _ => p

/-! ### Reading -/

/-- What a path names. -/
def entryAt? (tree : FileTree) (p : Path) : Option Entry :=
  match tree.locate p with
  | .ok loc => tree.entry? loc
  | .error _ => none

/-- Does the path name a directory? -/
def isDir (tree : FileTree) (p : Path) : Bool :=
  match tree.entryAt? p with
  | some .dir => true
  | _ => false

/-- Does the path name a file? -/
def isFile (tree : FileTree) (p : Path) : Bool :=
  match tree.entryAt? p with
  | some (.file _ _) | some (.program _) => true
  | _ => false

/-- Does the path name anything? -/
def present (tree : FileTree) (p : Path) : Bool :=
  (tree.entryAt? p).isSome

/-- The name of a location inside the directory `parent`. -/
def nameIn? (parent : Location) (loc : Location) : Option String :=
  if loc.dropLast = parent then loc.getLast? else none

/-- The names in the directory at a location, in no particular order. -/
def namesAt (tree : FileTree) (loc : Location) : List String :=
  tree.entries.filterMap fun (other, _) => nameIn? loc other

/-- The names in the directory that a path names, sorted. -/
def names (tree : FileTree) (p : Path) : List String :=
  match tree.locate p with
  | .ok loc => (tree.namesAt loc).mergeSort (· ≤ ·)
  | .error _ => []

/-- Why the names in the directory that a path names cannot be read, if they cannot. -/
def unlisted? (tree : FileTree) (p : Path) : Option OsError :=
  match tree.locate p with
  | .error e => some e
  | .ok loc =>
    if tree.entry? loc = some .dir then (tree.traitsAt loc).unlisted else some .notDirectory

/-- Reads the names in the directory that a path names. -/
def list (tree : FileTree) (p : Path) : Except OsError (List String) :=
  match tree.unlisted? p with
  | some e => .error e
  | none => .ok (tree.names p)

/-- How much of a device that does not end is read at most. -/
def endlessPart : Nat := 1048576

/-- The bytes of the file at a location.  Devices and programs of the system show none, unless they do not
end. -/
def readAt (tree : FileTree) (loc : Location) : Except OsError Bytes :=
  match tree.entry? loc with
  | some (.file content _) => .ok content
  | some .dir => .error .isDirectory
  | some .endless => .ok (List.replicate endlessPart 0)
  | some .sink | some .full | some (.stream _) | some (.program _) => .ok []
  | _ => .error .notFound

/-- The bytes of the file a path names. -/
def read (tree : FileTree) (p : Path) : Except OsError Bytes :=
  match tree.locate p with
  | .error e => .error e
  | .ok loc => tree.readAt loc

/-- The text of the file a path names. -/
def readText (tree : FileTree) (p : Path) : Except OsError (List Char) :=
  match tree.read p with
  | .error e => .error e
  | .ok bytes =>
    match decodeUtf8? bytes with
    | some text => .ok text
    | none => .error .invalidUtf8

/-! ### Writing -/

/-- Puts an entry at a location, in place of what was there. -/
def put (tree : FileTree) (loc : Location) (entry : Entry) : FileTree :=
  { tree with entries := tree.entries.filter (·.1 != loc) ++ [(loc, entry)] }

/-- Takes a location and all that is below it away. -/
def erase (tree : FileTree) (loc : Location) : FileTree :=
  { tree with
    entries := tree.entries.filter fun (other, _) => !loc.isPrefixOf other
    traits := tree.traits.filter fun (other, _) => !loc.isPrefixOf other }

/-- Says what is known of the thing at a location. -/
def setTraits (tree : FileTree) (loc : Location) (traits : Traits) : FileTree :=
  let others := tree.traits.filter (·.1 != loc)
  { tree with traits := if traits = {} then others else (loc, traits) :: others }

/-- The rights of the thing at a location. -/
def modeAt (tree : FileTree) (loc : Location) : Nat :=
  (tree.traitsAt loc).mode.getD ((tree.entry? loc).map Entry.usualMode |>.getD 0)

/-- Gives the thing at a location rights. -/
def setMode (tree : FileTree) (loc : Location) (mode : Nat) : FileTree :=
  match tree.entry? loc with
  | none => tree
  | some entry =>
    let entry := match entry with
      | .file content _ => .file content (mode &&& 0o111 != 0)
      | other => other
    let tree := if loc = [] then tree else
      { tree with entries := tree.entries.map fun (other, old) => (other, if other = loc then entry else old) }
    tree.setTraits loc { tree.traitsAt loc with mode := if mode = entry.usualMode then none else some mode }

/-- The locations at which the file at a location has its names. -/
def twins (tree : FileTree) (loc : Location) : List Location :=
  match (tree.traitsAt loc).identity with
  | none => [loc]
  | some number => (tree.traits.filter fun (_, t) => t.identity = some number).map Prod.fst

/-- Gives a file a content, under all of its names. -/
def fill (tree : FileTree) (loc : Location) (content : Bytes) : FileTree :=
  (tree.twins loc).foldl
    (fun tree place =>
      let executable := match tree.entry? place with
        | some (.file _ executable) => executable
        | _ => false
      (tree.put place (.file content executable)).setTraits place
        { tree.traitsAt place with changed := tree.now })
    tree

/-- Puts a new entry at a location, with the rights that new things get out of those it could have. -/
def putFresh (tree : FileTree) (loc : Location) (entry : Entry) (rights : Nat) : FileTree :=
  ((tree.put loc entry).setTraits loc { changed := tree.now }).setMode loc
    (rights &&& (0o777 ^^^ (tree.mask &&& 0o777)))

/-- Makes the directories at all locations that lead to `loc`, and at `loc`. -/
def makeDirs (tree : FileTree) (loc : Location) : FileTree :=
  (List.range loc.length).foldl
    (fun tree n =>
      let here := loc.take (n + 1)
      if (tree.entry? here).isSome then tree else tree.put here .dir)
    tree

/-- Makes the directories that steps from a location ask for, one after the other.  The way leads through
links, and a step up leaves a directory that has been made before it. -/
def makeWay (tree : FileTree) (start : Location) (steps : List String) : FileTree :=
  (List.range steps.length).foldl
    (fun tree n =>
      match tree.follow .stay maxLinks start (steps.take (n + 1)) with
      | .ok (.vacant parent name) => tree.put (parent ++ [name]) .dir
      | _ => tree)
    tree

/-- Makes the directory that a path names, and those on the way to it. -/
def placeDir (tree : FileTree) (p : Path) : FileTree :=
  tree.makeWay (tree.origin p) p.steps

/-- Puts an entry where a path leads, in place of what was there, and makes the directories on the way to
it. -/
def place (tree : FileTree) (p : Path) (entry : Entry) : FileTree :=
  let tree := tree.makeWay (tree.origin p) p.steps.dropLast
  match tree.follow .stay maxLinks (tree.origin p) p.steps with
  | .ok (.vacant parent name) => tree.put (parent ++ [name]) entry
  | .ok (.found loc) => tree.put loc entry
  | .error _ => tree

/-- Gives the thing at a location a content; what is no file yet becomes one. -/
def writeAt (tree : FileTree) (loc : Location) (content : Bytes) : Except OsError FileTree :=
  match tree.entry? loc with
  | some .dir => .error .isDirectory
  | some .sink | some .endless => .ok tree
  | some .full => if content.isEmpty then .ok tree else .error .noSpace
  | some (.stream written) => .ok (tree.put loc (.stream (written ++ content)))
  | some (.file _ _) => .ok (tree.fill loc content)
  | _ => .ok (tree.putFresh loc (.file content false) 0o666)

/-- The location of the file that is made or replaced at a path. -/
def target (tree : FileTree) (p : Path) : Except OsError Location :=
  match tree.spot .create p with
  | .error e => .error e
  | .ok (.vacant parent name) => .ok (parent ++ [name])
  | .ok (.found loc) => if tree.entry? loc = some .dir then .error .isDirectory else .ok loc

/-- Writes a file, new or in place of its old content. -/
def write (tree : FileTree) (p : Path) (content : Bytes) : Except OsError FileTree :=
  match tree.target p with
  | .error e => .error e
  | .ok loc => tree.writeAt loc content

/-- Adds bytes to a file that is there. -/
def append (tree : FileTree) (p : Path) (content : Bytes) : Except OsError FileTree :=
  match tree.locate p with
  | .error e => .error e
  | .ok loc =>
    match tree.entry? loc with
    | some (.file old _) => tree.writeAt loc (old ++ content)
    | some .dir => .error .isDirectory
    | _ => .ok tree

/-- Copies a file.  What is copied has to be a file, and a file that is copied to itself loses its
content, because the copy is emptied before it is filled. -/
def copy (tree : FileTree) (source p : Path) : Except OsError FileTree :=
  match tree.locate source with
  | .error e => .error e
  | .ok loc =>
    match tree.entry? loc with
    | some (.file content _) =>
      match tree.target p with
      | .error e => .error e
      | .ok place => tree.writeAt place (if place = loc then [] else content)
    | _ => .error .notRegular

/-- The files of a tree that an older tree does not have, or has with another content. -/
def changes (old new : FileTree) : List (Location × Bytes) :=
  new.entries.filterMap fun
    | (loc, .file content executable) =>
      if old.entry? loc = some (.file content executable) then none else some (loc, content)
    | _ => none

end FileTree

end Amalgam
