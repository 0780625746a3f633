import Amalgam.Proofs.EmissionOrder
import Mathlib.Data.List.Chain
import Mathlib.Logic.Relation

/-!
# The paths of a walk

While the order of emission is made, the stack is a path of the graph: each module on it
is imported by the one below.  So an edge that leads back to the stack closes a cycle, and
no other edge is ever dropped.

**Where a dropped edge ends up.**  Put the modules of the stack behind the written ones,
innermost first (`Walk.line`).  Writing a module does not change this list, and entering
one puts it where it was not, so what stands before what in it stays so to the end of the
walk.  The edge is dropped from the innermost module to one further out, which is behind
it in the list; in the finished order the *importing* module therefore comes first.

All of this holds of every walk that the order comes to (`Walk.Reached`), also of the one
that runs into a cycle under the rejecting policy.

## Main statements

* `Walk.Directed.step` — one step
* `Walk.Reached.directed` — every walk of an order
-/

namespace Amalgam

namespace Graph

/-- The first module imports the second. -/
def Edge (g : Graph) (i t : Nat) : Prop :=
  t ∈ g.neighbors i

/-- **The edges of a linked graph**: they lead to modules, from one module to another only
once, and from no module to itself. -/
structure SimpleEdges (g : Graph) : Prop where
  valid : g.EdgesValid
  nodup : ∀ i, (g.neighbors i).Nodup
  loopless : ∀ i, ¬ g.Edge i i

namespace Walk

/-! ### The path on the stack -/

/-- Modules in the order in which they are written: those that are, then those of the
stack, innermost first. -/
def line (w : Walk) : List Nat :=
  w.done.modules ++ w.stack.map Frame.node

/-- **What a walk keeps of paths and dropped edges.** -/
structure Directed (g : Graph) (w : Walk) : Prop where
  inside : ∀ i ∈ w.line, i < g.nodes.length
  /-- Each module on the stack is imported by the one below. -/
  path : (w.stack.map Frame.node).IsChain fun above below => g.Edge below above
  /-- The edges of a frame are still to be followed, each once. -/
  held : ∀ f ∈ w.stack, f.rest.Nodup ∧ ∀ t ∈ f.rest, (f.node, t) ∉ w.done.broken
  once : w.done.broken.Nodup
  /-- A dropped edge lies on a cycle. -/
  cyclic : ∀ e ∈ w.done.broken, g.Edge e.1 e.2 ∧ Relation.ReflTransGen g.Edge e.2 e.1
  /-- The importing module of a dropped edge is written first. -/
  behind : ∀ e ∈ w.done.broken, [e.1, e.2].Sublist w.line

/-- From every module of a path there is a way to its innermost one. -/
theorem reaches_innermost {g : Graph} {node i : Nat} {below : List Nat}
    (path : (node :: below).IsChain fun above under => g.Edge under above)
    (member : i ∈ node :: below) : Relation.ReflTransGen g.Edge i node := by
  induction below generalizing node with
  | nil =>
      rw [List.mem_singleton.mp member]
  | cons under below ih =>
      obtain ⟨edge, rest⟩ := List.isChain_cons_cons.mp path
      rcases List.mem_cons.mp member with rfl | further
      · exact .refl
      · exact (ih rest further).tail edge

/-- Writing the innermost module leaves the line as it is. -/
theorem line_write (node : Nat) (stack : List Frame) (done : EmissionOrder) :
    line ⟨stack, { done with modules := done.modules ++ [node] }⟩ =
      line ⟨⟨node, []⟩ :: stack, done⟩ := by
  simp [line]

theorem mem_line {w : Walk} {i : Nat} : i ∈ w.line ↔ w.Touched i := by
  simp only [line, List.mem_append, Touched]
  exact Or.comm

/-- A frame that has followed an edge holds the others as before. -/
theorem held_tail {node next : Nat} {rest : List Nat} {stack : List Frame}
    {broken : List (Nat × Nat)}
    (held : ∀ f ∈ (⟨node, next :: rest⟩ : Frame) :: stack,
      f.rest.Nodup ∧ ∀ t ∈ f.rest, (f.node, t) ∉ broken) :
    ∀ f ∈ (⟨node, rest⟩ : Frame) :: stack,
      f.rest.Nodup ∧ ∀ t ∈ f.rest, (f.node, t) ∉ broken := by
  intro f member
  rcases List.mem_cons.mp member with rfl | below
  · obtain ⟨nodup, free⟩ := held _ List.mem_cons_self
    exact ⟨(List.nodup_cons.mp nodup).2, fun t later => free t (List.mem_cons_of_mem _ later)⟩
  · exact held f (List.mem_cons_of_mem _ below)

/-- Dropping the edge that was followed takes none of those still held. -/
theorem held_drop {node next : Nat} {rest : List Nat} {stack : List Frame}
    {broken : List (Nat × Nat)} (fresh : node ∉ stack.map Frame.node)
    (held : ∀ f ∈ (⟨node, next :: rest⟩ : Frame) :: stack,
      f.rest.Nodup ∧ ∀ t ∈ f.rest, (f.node, t) ∉ broken) :
    ∀ f ∈ (⟨node, rest⟩ : Frame) :: stack,
      f.rest.Nodup ∧ ∀ t ∈ f.rest, (f.node, t) ∉ broken ++ [(node, next)] := by
  intro f member
  obtain ⟨nodup, free⟩ := held_tail held f member
  refine ⟨nodup, fun t later dropped => ?_⟩
  rcases List.mem_append.mp dropped with before | now
  · exact free t later before
  · obtain ⟨same, rfl⟩ : f.node = node ∧ t = next := by simpa using now
    rcases List.mem_cons.mp member with rfl | below
    · exact (List.nodup_cons.mp (held _ List.mem_cons_self).1).1 later
    · exact fresh (same ▸ List.mem_map_of_mem below)

/-- **One step keeps paths and dropped edges in order.** -/
theorem Directed.step {g : Graph} (simple : g.SimpleEdges) {policy : CyclePolicy} {w w' : Walk}
    (sound : w.Sound g) (directed : w.Directed g) (stepped : Stepped g policy w w') :
    w'.Directed g := by
  obtain ⟨inside, path, held, once, cyclic, behind⟩ := directed
  cases stepped with
  | write node stack done =>
      have same := line_write node stack done
      refine ⟨?_, path.tail, fun f below => held f (List.mem_cons_of_mem _ below), once, cyclic, ?_⟩
      · intro i member
        rw [same] at member
        exact inside i member
      · intro e dropped
        rw [same]
        exact behind e dropped
  | drop node next rest stack done cut closes =>
      have fresh : node ∉ stack.map Frame.node := fun member =>
        (List.nodup_cons.mp sound.nodup).1 (List.mem_append_left _ member)
      have edge : g.Edge node next := sound.edges _ List.mem_cons_self List.mem_cons_self
      have outside : next ∈ stack.map Frame.node := by
        rcases List.mem_cons.mp closes with rfl | further
        · exact absurd edge (simple.loopless next)
        · exact further
      have new : (node, next) ∉ done.broken :=
        (held _ List.mem_cons_self).2 next List.mem_cons_self
      refine ⟨inside, path, held_drop fresh held, ?_, ?_, ?_⟩
      · exact List.nodup_append.mpr ⟨once, List.nodup_singleton _, by
          rintro e before _ now rfl
          rw [List.mem_singleton.mp now] at before
          exact new before⟩
      · intro e dropped
        rcases List.mem_append.mp dropped with before | now
        · exact cyclic e before
        · rw [List.mem_singleton.mp now]
          exact ⟨edge, reaches_innermost path closes⟩
      · intro e dropped
        rcases List.mem_append.mp dropped with before | now
        · exact behind e before
        · rw [List.mem_singleton.mp now]
          have inner : [node, next].Sublist (node :: stack.map Frame.node) :=
            (List.singleton_sublist.mpr outside).cons_cons node
          exact inner.trans (List.sublist_append_right _ _)
  | pass node next rest stack done written =>
      exact ⟨inside, path, held_tail held, once, cyclic, behind⟩
  | enter node next rest stack done new =>
      have edge : g.Edge node next := sound.edges _ List.mem_cons_self List.mem_cons_self
      have longer : (line ⟨⟨node, next :: rest⟩ :: stack, done⟩).Sublist
          (line ⟨⟨next, g.neighbors next⟩ :: ⟨node, rest⟩ :: stack, done⟩) :=
        (List.Sublist.refl _).append (List.sublist_cons_self next _)
      refine ⟨?_, List.isChain_cons_cons.mpr ⟨edge, path⟩, ?_, once, cyclic, ?_⟩
      · intro i member
        rcases List.mem_append.mp member with written | onPath
        · exact inside i (List.mem_append_left _ written)
        · rcases List.mem_cons.mp onPath with rfl | below
          · exact simple.valid node i edge
          · exact inside i (List.mem_append_right _ below)
      · intro f member
        rcases List.mem_cons.mp member with rfl | below
        · -- edges are dropped only from modules that the walk has come to
          refine ⟨simple.nodup next, fun t _ dropped => new (mem_line.mp ?_)⟩
          exact (behind _ dropped).subset List.mem_cons_self
        · exact held_tail held f below
      · exact fun e dropped => (behind e dropped).trans longer

/-- **Every walk of an order** keeps paths and dropped edges in order. -/
theorem Reached.directed {g : Graph} (simple : g.SimpleEdges) {policy : CyclePolicy} {w : Walk}
    (reached : Reached g policy w) : w.Directed g := by
  induction reached with
  | start =>
      exact ⟨by simp [line], List.isChain_nil, by simp, List.nodup_nil, by simp, by simp⟩
  | @root w id reached empty below fresh directed =>
      obtain ⟨inside, -, -, once, cyclic, behind⟩ := directed
      have before : w.line = w.done.modules := by rw [line, empty, List.map_nil, List.append_nil]
      rw [before] at inside behind
      refine ⟨?_, List.isChain_singleton _, ?_, once, cyclic, ?_⟩
      · intro i member
        rcases List.mem_append.mp member with written | first
        · exact inside i written
        · rw [List.mem_singleton.mp first]
          exact below
      · intro f member
        rw [List.mem_singleton.mp member]
        refine ⟨simple.nodup id, fun t _ dropped => fresh ?_⟩
        exact (behind _ dropped).subset List.mem_cons_self
      · exact fun e dropped => (behind e dropped).trans (List.sublist_append_left _ _)
  | step reached stepped directed => exact directed.step simple reached.sound stepped

end Walk

end Graph

end Amalgam
