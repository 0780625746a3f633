import Amalgam.Graph
import Amalgam.Policy

/-!
# The order of emission

Modules are put in an order in which a module follows those that it imports.  The order is a depth-first
walk with an explicit stack: a frame holds a module on the current path and the edges of it that were not
yet followed; a module is written when its frame has no edges left.  An edge to a module on the stack closes
a cycle, and the policy says whether that ends the walk or only drops the edge.

Every step uses up an edge or a frame, so `Graph.work`, the number of both, bounds the walk.

## Main definitions

* `EmissionOrder` — modules in order, and the edges that were dropped
* `Graph.Walk`, `Graph.Walk.step`, `Graph.Walk.run`
* `Graph.order` — the order, or a cycle
* `Graph.chain` — the names along a cycle
-/

namespace Amalgam

/-- Modules in order of emission, and the edges ignored to get it. -/
structure EmissionOrder where
  modules : List Nat := []
  broken : List (Nat × Nat) := []
  deriving DecidableEq, Repr

/-- A module on the current path, and its edges still to be followed. -/
structure Graph.Frame where
  node : Nat
  rest : List Nat
  deriving DecidableEq, Repr

/-- A depth-first walk under way: the current path, innermost module first, and the order so far. -/
structure Graph.Walk where
  stack : List Graph.Frame := []
  done : EmissionOrder := {}
  deriving DecidableEq, Repr

namespace Graph

namespace Walk

/-- Is the module on the current path? -/
def onPath (w : Walk) (id : Nat) : Bool :=
  w.stack.any (·.node == id)

/-- Is the module written? -/
def written (w : Walk) (id : Nat) : Bool :=
  w.done.modules.contains id

/-- The cycle that an edge to `id` closes: the modules of the path from `id` on, outermost first. -/
def cycleTo (w : Walk) (id : Nat) : List Nat :=
  let path := (w.stack.map Frame.node).reverse
  path.dropWhile (· != id)

/-- One step.  A walk whose stack is empty stays as it is. -/
def step (g : Graph) (policy : CyclePolicy) (w : Walk) : Except (List Nat) Walk :=
  match w.stack with
  | [] => .ok w
  | ⟨node, []⟩ :: stack =>
    .ok { stack, done := { w.done with modules := w.done.modules ++ [node] } }
  | ⟨node, next :: rest⟩ :: stack =>
    if w.onPath next then
      match policy with
      | .reject => .error (w.cycleTo next)
      | .cut =>
        .ok { stack := ⟨node, rest⟩ :: stack,
              done := { w.done with broken := w.done.broken ++ [(node, next)] } }
    else if w.written next then .ok { w with stack := ⟨node, rest⟩ :: stack }
    else .ok { w with stack := ⟨next, g.neighbors next⟩ :: ⟨node, rest⟩ :: stack }

/-- Steps until the stack is empty, at most `fuel` times. -/
def run (g : Graph) (policy : CyclePolicy) : Nat → Walk → Except (List Nat) Walk
  | 0, w => .ok w
  | fuel + 1, w =>
    if w.stack = [] then .ok w
    else
      match w.step g policy with
      | .ok w => run g policy fuel w
      | .error cycle => .error cycle

/-- Walks from one module, unless it is written. -/
def root (g : Graph) (policy : CyclePolicy) (fuel : Nat) (w : Walk) (id : Nat) :
    Except (List Nat) Walk :=
  if w.written id then .ok w
  else run g policy fuel { w with stack := [⟨id, g.neighbors id⟩] }

end Walk

/-- The number of frames and edges a walk can use up. -/
def work (g : Graph) : Nat :=
  g.nodes.foldr (fun n total => n.neighbors.length + 1 + total) 0

/-- The order of emission, or the modules along a cycle. -/
def order (g : Graph) (policy : CyclePolicy) : Except (List Nat) EmissionOrder :=
  ((List.range g.nodes.length).foldlM (Walk.root g policy g.work) {}).map Walk.done

/-- The name of a module. -/
def nameOf (g : Graph) (id : Nat) : String :=
  ((g.module? id).map Module.name).getD ""

/-- The names along a cycle, the first one repeated at the end. -/
def chain (g : Graph) (cycle : List Nat) : List String :=
  (cycle ++ cycle.take 1).map g.nameOf

end Graph

end Amalgam
