import Amalgam.Build
import Amalgam.JsonValue

/-!
# Reports

A summary of a build: which modules were combined and in which order, what stays outside, how each
declaration is called, what was found, and the digest of the combined program.

## Main definitions

* `Report`, `Report.ofBuild`
* `Report.render` — the report for a reader
* `Report.toJson` — the report for a program
-/

namespace Amalgam

/-- A module in a report. -/
structure Report.ModuleLine where
  name : String
  scope : String
  path : Path
  dependencies : List String
  deriving DecidableEq, Repr

/-- A summary of a build. -/
structure Report where
  modules : List Report.ModuleLine
  externals : List String
  /-- Qualified names and their identifiers. -/
  symbols : List (String × String)
  diagnostics : List Diagnostic
  /-- The digest of the combined program, in hexadecimal. -/
  digest : String
  deriving DecidableEq, Repr

namespace Report

/-- A module's line in a report. -/
def ModuleLine.ofModule (m : Module) : ModuleLine :=
  ⟨m.name, m.scope, m.path, m.dependencies⟩

/-- The digest of a text, in hexadecimal. -/
def digestOf (output : String) : String :=
  hexText (sha256 (encodeUtf8 output.toList))

/-- The report on a build that gave a combined program. -/
def ofBuild (b : Build) (output : String) : Report :=
  { modules := (b.emissionOrder.filterMap b.graph.module?).map ModuleLine.ofModule
    externals := b.externals
    symbols := b.registry.entries
    diagnostics := b.diagnostics
    digest := digestOf output }

/-! ### Text -/

/-- The lines on one module, numbered from one. -/
def ModuleLine.lines (m : ModuleLine) (index : Nat) : List String :=
  ("  " ++ Nat.repr (index + 1) ++ ". " ++ m.name ++ " [" ++ m.scope ++ "] " ++ m.path.text) ::
    if m.dependencies.isEmpty then [] else ["       imports: " ++ ", ".intercalate m.dependencies]

/-- Lines under a heading; nothing if there are none. -/
def headed (heading : String) (lines : List String) : List String :=
  if lines.isEmpty then [] else heading :: lines

/-- The lines of a report. -/
def lines (r : Report) : List String :=
  "modules (emission order):" :: (r.modules.mapIdx fun i m => m.lines i).flatten ++
    headed "external:" (r.externals.map ("  " ++ ·)) ++
    headed "symbols:" (r.symbols.map fun (qualified, identifier) =>
      "  " ++ qualified ++ " -> " ++ identifier) ++
    ["sha256: " ++ r.digest]

/-- The report for a reader. -/
def render (r : Report) : String :=
  String.join (r.lines.map (· ++ "\n"))

/-! ### JSON -/

/-- Texts as JSON. -/
def textList (texts : List String) : JsonValue :=
  .list (texts.map .text)

/-- A module as JSON. -/
def ModuleLine.toJson (m : ModuleLine) : JsonValue :=
  .record [("name", .text m.name), ("namespace", .text m.scope), ("path", .text m.path.text),
    ("dependencies", textList m.dependencies)]

/-- A diagnostic as JSON. -/
def diagnosticJson (d : Diagnostic) : JsonValue :=
  .record [("message", .text d.message),
    ("path", (d.path.map fun p => JsonValue.text p.text).getD .null),
    ("line", (d.line.map JsonValue.number).getD .null)]

/-- A declaration and its identifier as JSON. -/
def symbolJson (pair : String × String) : JsonValue :=
  .record [("qualified", .text pair.1), ("translated", .text pair.2)]

/-- The report as JSON. -/
def toJson (r : Report) : JsonValue :=
  .record [("modules", .list (r.modules.map ModuleLine.toJson)),
    ("externals", textList r.externals), ("symbols", .list (r.symbols.map symbolJson)),
    ("diagnostics", .list (r.diagnostics.map diagnosticJson)), ("output_sha256", .text r.digest)]

end Report

end Amalgam
