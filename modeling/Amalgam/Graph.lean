import Amalgam.Module

/-!
# The graph of modules

Modules are numbered in the order in which they were found; an edge leads from a module to one that it
imports.  A file is in the graph once: its path decides.  Paths and names lead to modules through an index
each; the first module to take a name keeps it.

## Main definitions

* `Graph`, `Graph.Node`
* `Graph.add`, `Graph.addName` — a new module, and one more name for a module
* `Graph.byName?`, `Graph.byPath?`, `Graph.module?`
* `Graph.modify` — a change to one module
* `Graph.target?`, `Graph.link` — the module that a dependency means, and all edges
-/

namespace Amalgam

/-- A module and the numbers of the modules it imports. -/
structure Graph.Node where
  module : Module
  neighbors : List Nat := []
  deriving DecidableEq, Repr

/-- The modules of a program. -/
structure Graph where
  nodes : List Graph.Node := []
  /-- The paths of the modules, with their numbers. -/
  paths : List (Path × Nat) := []
  /-- Names and the modules they lead to; the first entry of a name counts. -/
  index : List (String × Nat) := []
  deriving DecidableEq, Repr

namespace Graph

/-- The module a name leads to. -/
def byName? (g : Graph) (name : String) : Option Nat :=
  g.index.lookup name

/-- The module of a file. -/
def byPath? (g : Graph) (p : Path) : Option Nat :=
  (g.paths.find? fun entry => entry.1.same p).map Prod.snd

/-- The module with a number. -/
def module? (g : Graph) (id : Nat) : Option Module :=
  g.nodes[id]?.map Node.module

/-- The modules a module imports. -/
def neighbors (g : Graph) (id : Nat) : List Nat :=
  (g.nodes[id]?.map Node.neighbors).getD []

/-- Lets one more name lead to a module, unless it leads to one. -/
def addName (g : Graph) (name : String) (id : Nat) : Graph :=
  if (g.byName? name).isSome then g else { g with index := g.index ++ [(name, id)] }

/-- Adds a module and returns its number; a file that is there already keeps its module. -/
def add (g : Graph) (m : Module) : Graph × Nat :=
  match g.byPath? m.path with
  | some id => (g, id)
  | none =>
    let id := g.nodes.length
    let grown : Graph := { g with nodes := g.nodes ++ [⟨m, []⟩], paths := g.paths ++ [(m.path, id)] }
    (grown.addName m.name id, id)

/-- Changes one module. -/
def modify (g : Graph) (id : Nat) (f : Module → Module) : Graph :=
  { g with nodes := g.nodes.modify id fun n => { n with module := f n.module } }

/-- The module a dependency means: the one its name leads to, or else the first with that scope. -/
def target? (g : Graph) (name : String) : Option Nat :=
  g.byName? name <|> g.nodes.findIdx? fun n => n.module.scope == name

/-- The edges of the module numbered `id`, for its dependencies in order: no loop, no repetition. -/
def edgesOf (g : Graph) (id : Nat) (dependencies : List String) : List Nat :=
  dependencies.foldl
    (fun edges name =>
      match g.target? name with
      | some target => if target = id then edges else insertLast edges target
      | none => edges)
    []

/-- Draws all edges anew from the dependencies. -/
def link (g : Graph) : Graph :=
  { g with nodes := g.nodes.mapIdx fun id n =>
      { n with neighbors := g.edgesOf id n.module.dependencies } }

end Graph

end Amalgam
