import Amalgam.Excerpt
import Amalgam.FileTree.Streams
import Amalgam.Report
import Amalgam.Request.Help
import Amalgam.Request.Reader

/-!
# Sessions

One run of the program: from a command line and a file tree to the exit status, the two outputs and the file
tree that is left.  An artifact that is written to the path of an output is part of that output.

## Main definitions

* `Session` — how a run ends
* `Request.run` — what a request does
* `runCommand` — what a command line does
-/

namespace Amalgam

/-- How a run of the program ends. -/
structure Session where
  status : Nat
  stdout : String := ""
  /-- The lines of the error output. -/
  stderr : List String := []
  tree : FileTree

namespace Session

/-- A run that ends with a fault, after some lines on the error output. -/
def failed (tree : FileTree) (before : List String) (fault : Fault) : Session :=
  { status := 1, stderr := before ++ fault.lines tree, tree }

end Session

/-- The lines that show the diagnostics of a build. -/
def warningLines (tree : FileTree) (combined : Combined) : List String :=
  combined.build.diagnostics.flatMap (Diagnostic.lines tree)

/-- The line that says what was built. -/
def summaryLine (combined : Combined) (output : Path) : String :=
  "combined " ++ Nat.repr combined.build.graph.nodes.length ++ " module(s) into " ++ output.text

/-- The report on a combined program, as text or as JSON. -/
def reportText (combined : Combined) (json : Bool) : String :=
  let report := Report.ofBuild combined.build combined.source
  if json then report.toJson.pretty ++ "\n" else report.render

namespace Request

/-- Builds an artifact; warnings are shown when it is written. -/
def runBuild (host : Host) (tree : FileTree) (entry : Path) (settings : Settings) (output : Path)
    (kind : ArtifactKind) : Session :=
  match buildFile host tree entry output settings kind with
  | (.error fault, tree) => .failed tree [] fault
  | (.ok combined, tree) =>
    { status := 0
      stdout := tree.outputText
      stderr := tree.errorLines ++ warningLines tree combined ++ [summaryLine combined output]
      tree }

/-- Writes the combined source; warnings are shown before it is written. -/
def runCombine (host : Host) (tree : FileTree) (entry : Path) (settings : Settings)
    (output : Option Path) : Session :=
  match combineFile host tree entry settings with
  | (.error fault, tree) => .failed tree [] fault
  | (.ok combined, tree) =>
    let warnings := warningLines tree combined
    match output with
    | none => { status := 0, stdout := combined.source, stderr := warnings, tree }
    | some path =>
      match writeText tree path combined.source with
      | (.error fault, tree) => .failed tree warnings fault
      | (.ok (), tree) =>
        { status := 0, stdout := tree.outputText, stderr := warnings ++ tree.errorLines, tree }

/-- Prints the report on a program. -/
def runGraph (host : Host) (tree : FileTree) (entry : Path) (settings : Settings) (json : Bool) :
    Session :=
  match combineFile host tree entry settings with
  | (.error fault, tree) => .failed tree [] fault
  | (.ok combined, tree) =>
    { status := 0
      stdout := reportText combined json
      stderr := warningLines tree combined
      tree }

/-- Goes on with the settings for an entry file. -/
def withSettings (tree : FileTree) (entry : Path) (overrides : Overrides)
    (next : Settings → Session) : Session :=
  match resolveSettings tree entry overrides with
  | .error fault => .failed tree [] fault
  | .ok settings => next settings

/-- What a request does. -/
def run (host : Host) (tree : FileTree) : Request → Session
  | build entry overrides output kind =>
    withSettings tree entry overrides fun settings => runBuild host tree entry settings output kind
  | combine entry overrides output =>
    withSettings tree entry overrides fun settings => runCombine host tree entry settings output
  | graph entry overrides json =>
    withSettings tree entry overrides fun settings => runGraph host tree entry settings json
  | help topic => { status := 0, stdout := String.join (topic.lines.map (· ++ "\n")), tree }
  | version => { status := 0, stdout := programName ++ " " ++ programVersion ++ "\n", tree }

end Request

/-- The lines that say what is wrong with a command line. -/
def UsageError.lines : UsageError → List String
  | missingAction => Topic.program.lines
  | error => ["error: " ++ error.message, "", Topic.program.usage, "",
      "For more information, try '--help'."]

/-- What a command line does. -/
def runCommand (host : Host) (tree : FileTree) (args : List String) : Session :=
  match readRequest args with
  | .error e => { status := 2, stderr := e.lines, tree }
  | .ok request => request.run host tree

end Amalgam
