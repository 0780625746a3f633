import Amalgam.Fault
import Amalgam.Policy
import Amalgam.Text.Blank
import Amalgam.Toml.Reader

/-!
# Settings

The settings of a build: the defaults, then the nearest settings file above the entry file, then what the
command line says.  The walk to the settings file ends at a directory that holds `.git`, which may itself
hold the settings file.

## Main definitions

* `Settings`, `Overrides`
* `findSettings` — the nearest settings file
* `BuildSection`, `sectionOf?` — what a settings file may say
* `loadSettings` — the settings of a file
* `resolveSettings` — all of the above
-/

namespace Amalgam

/-- The settings of a build. -/
structure Settings where
  mode : SearchMode := .near
  /-- Directories searched after the entry's own. -/
  paths : List Path := []
  interpreter : String := "python3"
  wildcard : WildcardPolicy := .warn
  cycles : CyclePolicy := .reject
  /-- The file the settings were read from. -/
  file : Option Path := none
  deriving DecidableEq, Repr

/-- What the command line says about settings. -/
structure Overrides where
  mode : Option SearchMode := none
  paths : List Path := []
  interpreter : Option String := none
  wildcard : Option WildcardPolicy := none
  cycles : Option CyclePolicy := none
  deriving DecidableEq, Repr

/-! ### The settings file -/

/-- The directories from a path upwards, as long as there is a parent.  `fuel` bounds their number. -/
def ancestors : Nat → Path → List Path
  | 0, _ => []
  | fuel + 1, dir =>
    dir :: match dir.parent? with
      | some parent => ancestors fuel parent
      | none => []

/-- The settings file in the first directory that has one, unless a directory before it holds
`.git`. -/
def nearestSettings (tree : FileTree) : List Path → Option Path
  | [] => none
  | dir :: rest =>
    if tree.isFile (dir.child settingsFile) then some (dir.child settingsFile)
    else if tree.present (dir.child ".git") then none
    else nearestSettings tree rest

/-- The nearest settings file at or above a directory.  A path has no more components than characters, so
its ancestors are all looked at. -/
def findSettings (tree : FileTree) (start : Path) : Option Path :=
  let dir := tree.canonical start
  nearestSettings tree (ancestors (dir.text.length + 1) dir)

/-- What a settings file says; `none` where it says nothing. -/
structure BuildSection where
  mode : Option SearchMode := none
  paths : List String := []
  interpreter : Option String := none
  wildcard : Option WildcardPolicy := none
  cycles : Option CyclePolicy := none
  deriving DecidableEq, Repr

/-- The text that a value is. -/
def textOf? : Toml.Value → Option String
  | .text content => some content
  | _ => none

/-- The texts that a value lists. -/
def textsOf? : Toml.Value → Option (List String)
  | .list items => items.mapM textOf?
  | _ => none

/-- Is the value an empty list or table? -/
def isEmptyValue : Toml.Value → Bool
  | .list [] => true
  | .table _ [] => true
  | _ => false

/-- The word that a value chooses: the word itself, or a table with the word as its one key and nothing
under it. -/
def choiceOf? : Toml.Value → Option String
  | .text word => some word
  | .table _ [(word, value)] => if isEmptyValue value then some word else none
  | _ => none

/-- The setting named by a key. -/
def setField? (s : BuildSection) (key : String) (value : Toml.Value) : Option BuildSection :=
  match key with
  | "mode" =>
    (choiceOf? value).bind fun w => (SearchMode.ofWord? w).map fun m => { s with mode := some m }
  | "paths" => (textsOf? value).map fun paths => { s with paths }
  | "interpreter" => (textOf? value).map fun text => { s with interpreter := some text }
  | "wildcard" =>
    (choiceOf? value).bind fun w =>
      (WildcardPolicy.ofWord? w).map fun p => { s with wildcard := some p }
  | "cycles" =>
    (choiceOf? value).bind fun w => (CyclePolicy.ofWord? w).map fun p => { s with cycles := some p }
  | _ => none

/-- The settings of a build section: a table of settings, or a list of all of them in a fixed order, after
which anything may stand. -/
def sectionOf? : Toml.Value → Option BuildSection
  | .table _ fields => fields.foldlM (fun s (key, value) => setField? s key value) {}
  | .list items =>
    let keys := ["mode", "paths", "interpreter", "wildcard", "cycles"]
    if items.length < keys.length then none
    else (keys.zip items).foldlM (fun s (key, value) => setField? s key value) {}
  | _ => none

/-- What the text of a settings file says: it may hold a build section and nothing else. -/
def parseSettings? (source : List Char) : Option BuildSection :=
  match Toml.parse? source with
  | some [] => some {}
  | some [("build", value)] => sectionOf? value
  | _ => none

/-- The directories that a settings file names, as seen from its own directory. -/
def settingsPaths (tree : FileTree) (base : Path) (names : List String) :
    Except SettingsFault (List Path) :=
  names.mapM fun name =>
    let dir := base.join ⟨name⟩
    if tree.isDir dir then .ok dir else .error (.missingDirectory name)

/-- The settings of a file. -/
def loadSettings (tree : FileTree) (file : Path) : Except Fault Settings :=
  match tree.readText file with
  | .error cause => .error (.settings (.unreadable cause) file)
  | .ok source =>
    match parseSettings? source with
    | none => .error (.settings .malformed file)
    | some said =>
      match settingsPaths tree (file.parent?.getD ⟨"."⟩) said.paths with
      | .error fault => .error (.settings fault file)
      | .ok paths =>
        let standard : Settings := {}
        .ok { mode := said.mode.getD standard.mode
              paths
              interpreter := said.interpreter.getD standard.interpreter
              wildcard := said.wildcard.getD standard.wildcard
              cycles := said.cycles.getD standard.cycles
              file := some file }

/-! ### Overrides -/

/-- The settings with what the command line says. -/
def Settings.override (s : Settings) (o : Overrides) : Settings :=
  { s with
    mode := o.mode.getD s.mode
    paths := o.paths ++ s.paths
    interpreter := o.interpreter.getD s.interpreter
    wildcard := o.wildcard.getD s.wildcard
    cycles := o.cycles.getD s.cycles }

/-- The directory in which the walk to the settings file of an entry starts. -/
def settingsStart (entry : Path) : Path :=
  match entry.parent? with
  | some dir => if dir.text.isEmpty then ⟨"."⟩ else dir
  | none => ⟨"."⟩

/-- The settings for an entry file. -/
def resolveSettings (tree : FileTree) (entry : Path) (o : Overrides) : Except Fault Settings := do
  let base ← match findSettings tree (settingsStart entry) with
    | some file => loadSettings tree file
    | none => .ok {}
  match o.paths.find? (!tree.isDir ·) with
  | some dir => throw (.settings (.missingOverride dir) dir)
  | none => pure ()
  let settings := base.override o
  if settings.interpreter.toList.all isBlank then
    throw (.settings .emptyInterpreter (settings.file.getD ⟨""⟩))
  return settings

end Amalgam
