import Amalgam.Diagnostic
import Amalgam.Fault
import Amalgam.Graph.Order
import Amalgam.SearchTable
import Amalgam.Symbol.Registry

/-!
# The state of a build

Everything a build knows: the table of importable modules, the graph of the modules read so far, the
identifiers given out, the modules that stay outside the program, the directives that move to the top, and
the diagnostics.  Reading files only adds to it.

## Main definitions

* `Build` — the state
* `Build.claimScope`, `Build.declare`, `Build.bindAll` — scopes and symbols
* `Build.addExternal`, `Build.addFuture`, `Build.bindExternalName` — what stays outside
* `Build.finish` — the edges and the order of emission
-/

namespace Amalgam

/-- A name bound to something outside the program: what, and by which module first. -/
structure ExternalName where
  name : String
  target : String
  owner : Nat
  deriving DecidableEq, Repr

/-- The state of a build. -/
structure Build where
  table : SearchTable := {}
  wildcard : WildcardPolicy := .warn
  cycles : CyclePolicy := .reject
  graph : Graph := {}
  registry : Registry := {}
  /-- Scopes in use. -/
  scopes : List String := []
  /-- Names under which a module was looked for or read. -/
  visited : List String := []
  /-- Modules outside the program, in order of first import. -/
  externals : List String := []
  /-- Compiler directives, as statements, in order of first appearance. -/
  futures : List String := []
  externalNames : List ExternalName := []
  diagnostics : List Diagnostic := []
  /-- The order of emission, once it is known. -/
  order : Option EmissionOrder := none
  deriving DecidableEq, Repr

namespace Build

/-! ### Scopes and symbols -/

/-- The scope that a new module asking for `base` gets. -/
def freeScope (b : Build) (base : String) : String :=
  freshName b.scopes base

/-- Claims the scope that a new module asking for `base` gets. -/
def claimScope (b : Build) (base : String) : Build :=
  { b with scopes := b.scopes ++ [b.freeScope base] }

/-- Adds a module. -/
def addModule (b : Build) (m : Module) : Build × Nat :=
  let (graph, id) := b.graph.add m
  ({ b with graph }, id)

/-- Changes a module. -/
def modifyModule (b : Build) (id : Nat) (f : Module → Module) : Build :=
  { b with graph := b.graph.modify id f }

/-- Records a declaration of a module and gives it an identifier. -/
def declare (b : Build) (id : Nat) (name : String) : Build :=
  match b.graph.module? id with
  | some m =>
    { b.modifyModule id (·.declare name) with
      registry := b.registry.register (qualify m.scope name) }
  | none => b

/-- Makes names of other modules visible in a module. -/
def bindAll (b : Build) (id : Nat) (pairs : List (String × String)) : Build :=
  b.modifyModule id (·.bindAll pairs)

/-- The symbols of a module. -/
def symbolsOf (b : Build) (id : Nat) : SymbolTable :=
  ((b.graph.module? id).map Module.symbols).getD {}

/-! ### Modules inside and outside -/

/-- Records that a module was looked for or read under a name. -/
def markVisited (b : Build) (name : String) : Build :=
  { b with visited := insertLast b.visited name }

/-- Records a module outside the program. -/
def addExternal (b : Build) (name : String) : Build :=
  { b with externals := insertLast b.externals name }

/-- Records a compiler directive. -/
def addFuture (b : Build) (clause : String) : Build :=
  { b with futures := insertLast b.futures clause }

/-- Reports a finding. -/
def report (b : Build) (d : Diagnostic) : Build :=
  { b with diagnostics := b.diagnostics ++ [d] }

/-- Reports a finding at a line. -/
def reportAt (b : Build) (finding : Finding) (path : Path) (line : Nat) : Build :=
  b.report ⟨finding, some path, some line⟩

/-- Records that a module binds a name to something outside the program.  The modules share one scope
once combined, so a name that another module first bound to something else is reported. -/
def bindExternalName (b : Build) (id : Nat) (name target : String) (path : Path) (line : Nat) :
    Build :=
  match b.externalNames.find? (·.name == name) with
  | some first =>
    if first.owner ≠ id ∧ first.target ≠ target then
      b.reportAt (.nameConflict name target first.target (b.graph.nameOf first.owner)) path line
    else b
  | none => { b with externalNames := b.externalNames ++ [⟨name, target, id⟩] }

/-! ### The order -/

/-- The diagnostic for an ignored import. -/
def cycleDiagnostic (g : Graph) (edge : Nat × Nat) : Diagnostic :=
  { finding := .brokenCycle (g.nameOf edge.1) (g.nameOf edge.2)
    path := (g.module? edge.1).map Module.path }

/-- Draws the edges of the graph and settles the order of emission.  The edges stay drawn when there is
no order. -/
def finish (b : Build) : Except Fault Unit × Build :=
  let linked := { b with graph := b.graph.link }
  match linked.graph.order b.cycles with
  | .error cycle => (.error (.circularImport (linked.graph.chain cycle)), linked)
  | .ok order =>
    (.ok (), { linked with
      diagnostics := linked.diagnostics ++ order.broken.map (cycleDiagnostic linked.graph)
      order := some order })

/-- The modules in order of emission; none before the order is known. -/
def emissionOrder (b : Build) : List Nat :=
  (b.order.map EmissionOrder.modules).getD []

end Build

end Amalgam
