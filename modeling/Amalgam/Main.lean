import Amalgam.Script.Run
import Amalgam.Session

/-!
# The program

The outermost layer: it reads files, runs the command line on them and writes what changed.  The files that
the command may use are named on the standard input, one to a line, so that a listing of a directory can be
passed on to it:

    find . -name "*.py" -o -name coiler.toml | amalgam combine main.py

The interpreter that a command names has to be among the files too, and has to be a shell script.
-/

namespace Amalgam

/-- The lines of a stream, without the ends of lines. -/
partial def linesOf (stream : IO.FS.Stream) (before : Array String) : IO (Array String) := do
  let line ← stream.getLine
  if line.isEmpty then return before
  linesOf stream (before.push (String.ofList ((outputLines line.toList).headD [])))

/-- Adds a file to a tree, if it can be read. -/
def addListed (tree : FileTree) (name : String) : IO FileTree :=
  try
    let content ← IO.FS.readBinFile name
    return tree.place ⟨name⟩ (Script.entryOf content.toList)
  catch _ => return tree

/-- The tree of the files that a listing names, as seen from a directory. -/
def treeOfListing (workdir : Path) (listing : Array String) : IO FileTree :=
  let tree := Script.systemTree.placeDir workdir
  listing.foldlM addListed { tree with workdir := (tree.locate workdir).toOption.getD [] }

end Amalgam

open Amalgam

/-- Runs the command line. -/
def main (args : List String) : IO UInt32 := do
  let listing ← linesOf (← IO.getStdin) #[]
  let tree ← treeOfListing ⟨toString (← IO.currentDir)⟩ listing
  let session := runCommand Script.host tree args
  IO.print session.stdout
  for line in session.stderr do
    IO.eprintln line
  for (loc, content) in tree.changes session.tree do
    IO.FS.writeBinFile (Path.ofLocation loc).text ⟨content.toArray⟩
  return session.status.toUInt32
