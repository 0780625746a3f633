import Amalgam.Fault
import Amalgam.Host
import Amalgam.NameMap

/-!
# Payloads

An executable that carries a program: behind a launcher stand a marker and the program's bytes.  The payload
of a file is all that follows the first marker in it.

## Main definitions

* `payloadMarker`
* `extractPayload?` — what follows the first marker
* `appendPayload` — a marker and a payload at the end of a file
* `linkExecutable` — a launcher with a program behind it
-/

namespace Amalgam

/-- The bytes between a launcher and its payload: a run of zeros, then a tag. -/
def payloadMarker : Bytes :=
  List.replicate 23 0 ++ encodeUtf8 "COILER_SRC:".toList

/-- What follows the first marker. -/
def extractPayload? : Bytes → Option Bytes
  | [] => none
  | b :: bs =>
    if payloadMarker.isPrefixOf (b :: bs) then some ((b :: bs).drop payloadMarker.length)
    else extractPayload? bs

/-- Puts a marker and a payload at the end of a file. -/
def appendPayload (tree : FileTree) (path : Path) (payload : Bytes) : Except Fault FileTree :=
  match tree.append path (payloadMarker ++ payload) with
  | .ok tree => .ok tree
  | .error cause => .error (.unopenable path cause)

/-- A directory for temporary files that is not in use. -/
def temporaryDir (tree : FileTree) (name : String) : Location :=
  ["tmp", freshName (tree.namesAt ["tmp"]) name]

/-- Compiles the launcher to `output` and puts the compiled program behind it. -/
def linkExecutable (host : Host) (tree : FileTree) (program output : Path) (interpreter : String) :
    Except Fault Unit × FileTree :=
  match tree.read program with
  | .error cause => (.error (.unreadableProgram program cause), tree)
  | .ok payload =>
    let dir := temporaryDir tree "launcher"
    let source := dir ++ ["bootstrap.c"]
    let prepared := (tree.makeDirs dir).put source (.file (encodeUtf8 host.launcher.toList) false)
    let command : Command :=
      ⟨"cc", ["-O2", "-DCOILER_INTERPRETER=\"" ++ interpreter ++ "\"", (Path.ofLocation source).text,
        "-o", output.text]⟩
    match host.run prepared command with
    | .error cause => (.error (.linkerMissing cause), tree)
    | .ok (outcome, linked) =>
      let linked := linked.erase dir
      if outcome.status ≠ 0 then
        (.error (.linkFailed (String.ofList (decodeLenient outcome.stderr))), linked)
      else
        match appendPayload linked output payload with
        | .ok tree => (.ok (), tree)
        | .error fault => (.error fault, linked)

end Amalgam
