import Amalgam.Interpreter
import Amalgam.Combined
import Amalgam.Settings

/-!
# Artifacts

What a build leaves in the file tree: the combined source, its bytecode, or an executable that carries the
bytecode.

## Main definitions

* `startBuild` — the build before any file is scanned
* `combineFile` — a program combined with given settings
* `ArtifactKind`, `writeArtifact`, `buildFile`
-/

namespace Amalgam

/-- The build of an entry file before any file is scanned. -/
def startBuild (tree : FileTree) (entry : Path) (settings : Settings) (system : List Path) : Build :=
  let index := searchIndex tree
    (searchOrder (entryDirectory tree entry :: settings.paths) settings.mode system)
  { table := index.table
    wildcard := settings.wildcard
    cycles := settings.cycles
    diagnostics := index.diagnostics }

/-- The directories that the interpreter adds to the search, if the settings ask for them. -/
def systemPaths (host : Host) (tree : FileTree) (settings : Settings) :
    Except Fault (List Path) × FileTree :=
  match settings.mode with
  | .near => (.ok [], tree)
  | .all => interpreterPaths host tree settings.interpreter

/-- Combines the program of an entry file. -/
def combineFile (host : Host) (tree : FileTree) (entry : Path) (settings : Settings) :
    Except Fault Combined × FileTree :=
  match systemPaths host tree settings with
  | (.error fault, tree) => (.error fault, tree)
  | (.ok system, tree) => (combine tree entry (startBuild tree entry settings system), tree)

/-- The kinds of artifacts. -/
inductive ArtifactKind where
  | source
  | bytecode
  | executable
  deriving DecidableEq, Repr

/-- Writes a text to a file. -/
def writeText (tree : FileTree) (path : Path) (text : String) : Except Fault Unit × FileTree :=
  match tree.write path (encodeUtf8 text.toList) with
  | .ok tree => (.ok (), tree)
  | .error cause => (.error (.unwritable path cause), tree)

/-- Writes an executable that carries the bytecode of a source. -/
def writeExecutable (host : Host) (tree : FileTree) (source : String) (output : Path)
    (interpreter : String) : Except Fault Unit × FileTree :=
  let dir := temporaryDir tree "staging"
  let program := Path.ofLocation (dir ++ ["program.pyc"])
  match compileSource host (tree.makeDirs dir) source program interpreter with
  | (.error fault, tree) => (.error fault, tree.erase dir)
  | (.ok (), tree) =>
    let (result, tree) := linkExecutable host tree program output interpreter
    (result, tree.erase dir)

/-- Writes an artifact of a combined source. -/
def writeArtifact (host : Host) (tree : FileTree) (source : String) (output : Path)
    (interpreter : String) : ArtifactKind → Except Fault Unit × FileTree
  | .source => writeText tree output source
  | .bytecode => compileSource host tree source output interpreter
  | .executable => writeExecutable host tree source output interpreter

/-- Combines the program of an entry file and writes an artifact of it. -/
def buildFile (host : Host) (tree : FileTree) (entry output : Path) (settings : Settings)
    (kind : ArtifactKind) : Except Fault Combined × FileTree :=
  match combineFile host tree entry settings with
  | (.error fault, tree) => (.error fault, tree)
  | (.ok combined, tree) =>
    match writeArtifact host tree combined.source output settings.interpreter kind with
    | (.error fault, tree) => (.error fault, tree)
    | (.ok (), tree) => (.ok combined, tree)

end Amalgam
