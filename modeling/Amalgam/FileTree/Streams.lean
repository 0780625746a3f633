import Amalgam.FileTree
import Amalgam.Text.Lines

/-!
# Streams as files

The standard streams of a run have paths, so a result can be written to the output or to the error output
like to a file.  The standard input is empty: its path leads to the device that holds nothing.

## Main definitions

* `streamDir`, `outputStream`, `errorStream` — where the streams are
* `devices` — the part of a file tree that holds devices and streams
* `FileTree.outputText`, `FileTree.errorLines` — what was written to the streams by way of their paths
-/

namespace Amalgam

/-- The directory in which streams are known by their numbers. -/
def streamDir : Location :=
  ["proc", "self", "fd"]

/-- Where the standard output is. -/
def outputStream : Location :=
  streamDir ++ ["1"]

/-- Where the error output is. -/
def errorStream : Location :=
  streamDir ++ ["2"]

/-- The devices and the streams of a system, with the names that lead to them. -/
def devices : List (Location × Entry) :=
  let toStreams := (Path.ofLocation streamDir).text
  [(["dev"], .dir), (["dev", "null"], .sink), (["dev", "zero"], .endless), (["dev", "full"], .full),
   (["dev", "random"], .endless), (["dev", "urandom"], .endless),
   (["dev", "shm"], .dir), (["dev", "fd"], .link toStreams), (["dev", "stdin"], .link (toStreams ++ "/0")),
   (["dev", "stdout"], .link (toStreams ++ "/1")), (["dev", "stderr"], .link (toStreams ++ "/2")),
   (["proc"], .dir), (["proc", "self"], .dir), (streamDir, .dir), (streamDir ++ ["0"], .link "/dev/null"),
   (outputStream, .stream []), (errorStream, .stream [])]

namespace FileTree

/-- The text that was written to the stream at a location. -/
def writtenAt (tree : FileTree) (loc : Location) : List Char :=
  match tree.entry? loc with
  | some (.stream written) => decodeLenient written
  | _ => []

/-- The text that was written to the standard output. -/
def outputText (tree : FileTree) : String :=
  String.ofList (tree.writtenAt outputStream)

/-- The lines that were written to the error output. -/
def errorLines (tree : FileTree) : List String :=
  (sourceLines (tree.writtenAt errorStream)).map String.ofList

end FileTree

end Amalgam
