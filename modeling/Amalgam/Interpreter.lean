import Amalgam.Payload
import Amalgam.Text.Blank
import Amalgam.Text.Lines

/-!
# The interpreter

What a build asks of a Python interpreter: its search path, and the bytecode of a source.

## Main definitions

* `interpreterPaths` — the interpreter's search directories
* `compileSource` — the bytecode of a source, written to a file
* `interpreterAvailable` — whether the interpreter can be started
-/

namespace Amalgam

/-- The program that prints the search directories, one to a line. -/
def searchPathProgram : String :=
  "import sys\nfor p in sys.path: print(p)"

/-- The directories that an output names: its lines without the blanks at their ends, empty ones left
out. -/
def pathsOfOutput (output : List Char) : List Path :=
  (((outputLines output).map trimEnd).filter (· ≠ [])).map fun line => ⟨String.ofList line⟩

/-- The search directories of an interpreter, and the tree after asking for them. -/
def interpreterPaths (host : Host) (tree : FileTree) (interpreter : String) :
    Except Fault (List Path) × FileTree :=
  match host.run tree ⟨interpreter, ["-c", searchPathProgram]⟩ with
  | .error cause => (.error (.interpreterMissing interpreter cause), tree)
  | .ok (outcome, tree) =>
    if outcome.status = 0 then (.ok (pathsOfOutput (decodeLenient outcome.stdout)), tree)
    else
      let log := String.ofList (trim (decodeLenient outcome.stderr))
      (.error (.searchPathRefused interpreter log), tree)

/-- The name of the compiled module for an output file. -/
def bytecodeStem (output : Path) : String :=
  match output.stem? with
  | some stem => if stem.isEmpty then "combined" else stem
  | none => "combined"

/-- Compiles a source and writes the bytecode to a file.  The source is compiled in a directory of its own,
which is gone afterwards. -/
def compileSource (host : Host) (tree : FileTree) (source : String) (output : Path)
    (interpreter : String) : Except Fault Unit × FileTree :=
  let stem := bytecodeStem output
  let dir := temporaryDir tree "bytecode"
  let sourceFile := Path.ofLocation (dir ++ [stem ++ ".py"])
  let command : Command :=
    ⟨interpreter, ["-m", "compileall", "-b", "-q", (Path.ofLocation dir).text]⟩
  match (tree.makeDirs dir).write sourceFile (encodeUtf8 source.toList) with
  | .error cause => (.error (.unwritable sourceFile cause), tree)
  | .ok prepared =>
    match host.run prepared command with
    | .error cause => (.error (.interpreterMissing interpreter cause), tree)
    | .ok (outcome, compiled) =>
      if outcome.status ≠ 0 then
        let log := trimEnd (decodeLenient outcome.stdout ++ decodeLenient outcome.stderr)
        (.error (.compilationFailed (String.ofList log)), compiled.erase dir)
      else
        match compiled.copy (.ofLocation (dir ++ [stem ++ ".pyc"])) output with
        | .error cause => (.error (.unwritable output cause), compiled.erase dir)
        | .ok copied => (.ok (), copied.erase dir)

/-- Can the interpreter be started?  The tree is the one after trying. -/
def interpreterAvailable (host : Host) (tree : FileTree) (interpreter : String) : Bool × FileTree :=
  match host.run tree ⟨interpreter, ["--version"]⟩ with
  | .ok (outcome, tree) => (outcome.status == 0, tree)
  | .error _ => (false, tree)

end Amalgam
