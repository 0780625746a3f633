import Amalgam.Diagnostic
import Amalgam.Fault
import Amalgam.Text.Lines

/-!
# Excerpts

How faults and diagnostics are shown.  One that is about a line of a file is shown with the line, if the
file can still be read and still has it; otherwise its text and its place are written.

## Main definitions

* `excerpt?` — the line of a file that a message is about
* `Fault.lines`, `Diagnostic.lines` — what is shown of a fault and of a diagnostic
-/

namespace Amalgam

/-- Where a message belongs. -/
def placeLine (path : Path) (line : Option Nat) : String :=
  match line with
  | some n => "  --> " ++ path.text ++ ":" ++ Nat.repr n
  | none => "  --> " ++ path.text

/-- The text of a source between two byte positions. -/
def textBetween (source : List Char) (start stop : Nat) : List Char :=
  decodeLenient (((encodeUtf8 source).drop start).take (stop - start))

/-- The line of a file that a message is about, under a title and over the message. -/
def excerpt? (tree : FileTree) (title message : String) (path : Path) (line : Nat) :
    Option (List String) :=
  match tree.readText path with
  | .error _ => none
  | .ok source =>
    (lineBytes source line).map fun (start, stop) =>
      let text := textBetween source start stop
      let number := Nat.repr line
      let margin := String.ofList (List.replicate (number.length + 2) ' ')
      [placeLine path (some line), title,
        " " ++ number ++ " | " ++ String.ofList text,
        margin ++ "| " ++ String.ofList (List.replicate text.length '^') ++ " " ++ message]

/-- What is shown of a fault. -/
def Fault.lines (tree : FileTree) (fault : Fault) : List String :=
  let path := fault.path?.getD ⟨""⟩
  match fault.kind with
  | .unsupportedImport =>
    let line := fault.line?.getD 0
    (excerpt? tree "Error: unsupported import" fault.detail path line).getD
      ["error: " ++ fault.detail, placeLine path (some line)]
  | .files => ["error[io]: " ++ fault.detail, placeLine path none]
  | .settings => ["error[config]: " ++ fault.detail, placeLine path none]
  | .circularImport | .toolchain | .payload => ["error: " ++ fault.message]

/-- What is shown of a diagnostic that no line of a file can be shown for. -/
def Diagnostic.plainLines (d : Diagnostic) : List String :=
  let place := match d.path with
    | some path => [placeLine path d.line]
    | none => []
  ("warning: " ++ d.message) :: place

/-- What is shown of a diagnostic. -/
def Diagnostic.lines (tree : FileTree) (d : Diagnostic) : List String :=
  match d.path, d.line with
  | some path, some line =>
    (excerpt? tree "Warning: warning" d.message path line).getD d.plainLines
  | _, _ => d.plainLines

end Amalgam
