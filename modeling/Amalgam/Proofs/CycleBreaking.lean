import Amalgam.Proofs.DefinitionOrder
import Amalgam.Proofs.WalkedPaths

/-!
# Orders of graphs with cycles

The two policies differ only where an edge leads back to the stack of the walk.  The
cutting policy drops such edges and always comes to an order; the edges that are left go
back in it, so no cycle is left.  The rejecting policy stops there, with the part of the
stack that the edge closes to a cycle; if it never stops, it has made the same order, and
since no edge was dropped the graph has no cycle.

## Main statements

* `Graph.simpleEdges_link` — the edges of a linked graph
* `Graph.ring_of_order_error` — what the rejecting policy reports
* `Graph.order_broken` — what was dropped, under any policy
* `cutting_order_breaks_every_cycle`, `rejecting_order_iff_acyclic`
-/

namespace Amalgam

namespace Graph

/-! ### Linked graphs -/

/-- Names lead to modules. -/
def IndexValid (g : Graph) : Prop :=
  ∀ name id, g.byName? name = some id → id < g.nodes.length

variable {g : Graph} {policy : CyclePolicy} {order : EmissionOrder} {i j : Nat}

theorem indexValid_of_forall_mem (inside : ∀ e ∈ g.index, e.2 < g.nodes.length) :
    g.IndexValid := by
  intro name id leads
  exact inside (name, id) (mem_of_lookup leads)

/-- No edge is drawn twice. -/
theorem nodup_edgesOf (g : Graph) (id : Nat) (dependencies : List String) :
    (g.edgesOf id dependencies).Nodup := by
  unfold edgesOf
  suffices kept : ∀ edges : List Nat, edges.Nodup → (dependencies.foldl _ edges).Nodup from
    kept [] List.nodup_nil
  induction dependencies with
  | nil => exact fun edges nodup => nodup
  | cons name rest ih =>
      intro edges nodup
      rw [List.foldl_cons]
      refine ih _ ?_
      split
      · split
        · exact nodup
        · exact nodup_insertLast nodup _
      · exact nodup

/-- **The edges that are drawn** lead to other modules, to each once. -/
theorem simpleEdges_link (indexed : g.IndexValid) : g.link.SimpleEdges := by
  have drawn : ∀ i, g.link.neighbors i = [] ∨
      ∃ m : Module, g.link.neighbors i = g.edgesOf i m.dependencies := by
    intro i
    cases here : g.module? i with
    | none =>
        have missing : g.nodes[i]? = none := Option.map_eq_none_iff.mp here
        exact Or.inl (by simp [neighbors, link, missing])
    | some m => exact Or.inr ⟨m, neighbors_link here⟩
  refine ⟨edgesValid_link fun leads => indexed _ _ leads, fun i => ?_, fun i loop => ?_⟩
  · rcases drawn i with none | ⟨m, some⟩
    · rw [none]
      exact List.nodup_nil
    · rw [some]
      exact nodup_edgesOf g i m.dependencies
  · unfold Edge at loop
    rcases drawn i with none | ⟨m, some⟩
    · rw [none] at loop
      cases loop
    · rw [some] at loop
      obtain ⟨name, -, -, other⟩ := mem_edgesOf.mp loop
      exact other rfl

/-! ### Cycles -/

/-- No module comes back to itself along edges. -/
def Acyclic (edge : Nat → Nat → Prop) : Prop :=
  ∀ i, ¬ Relation.TransGen edge i i

/-- Edges along which a rank falls make no cycle. -/
theorem acyclic_of_rank {edge : Nat → Nat → Prop} (rank : Nat → Nat)
    (falls : ∀ i j, edge i j → rank j < rank i) : Acyclic edge := by
  have below : ∀ {i j}, Relation.TransGen edge i j → rank j < rank i := by
    intro i j path
    induction path with
    | single edge => exact falls _ _ edge
    | tail _ edge ih => exact (falls _ _ edge).trans ih
  intro i cycle
  exact Nat.lt_irrefl _ (below cycle)

/-- **A cycle of the graph**, given by its modules in order: two at least and none twice,
each importing the next, and the last one the first. -/
structure Ring (g : Graph) (first : Nat) (rest : List Nat) : Prop where
  longer : rest ≠ []
  nodup : (first :: rest).Nodup
  edges : (first :: rest ++ [first]).IsChain g.Edge
  inside : ∀ i ∈ first :: rest, i < g.nodes.length

theorem transGen_of_isChain {edge : Nat → Nat → Prop} {between : List Nat}
    (chain : (i :: (between ++ [j])).IsChain edge) : Relation.TransGen edge i j := by
  induction between generalizing i with
  | nil => exact .single (List.isChain_cons_cons.mp chain).1
  | cons k between ih =>
      obtain ⟨first, rest⟩ := List.isChain_cons_cons.mp chain
      exact .head first (ih rest)

theorem Ring.not_acyclic {first : Nat} {rest : List Nat} (ring : g.Ring first rest) :
    ¬ Acyclic g.Edge :=
  fun acyclic => acyclic first (transGen_of_isChain ring.edges)

/-! ### What the rejecting policy reports -/

namespace Walk

/-- **A step fails in one way only**: an edge leads back to the stack, and the policy
rejects it. -/
theorem step_eq_error {g : Graph} {policy : CyclePolicy} {w : Walk} {cycle : List Nat}
    (failed : w.step g policy = .error cycle) :
    policy = .reject ∧ ∃ node next rest stack, w.stack = ⟨node, next :: rest⟩ :: stack ∧
      next ∈ w.stack.map Frame.node ∧ cycle = w.cycleTo next := by
  obtain ⟨stack, done⟩ := w
  match stack with
  | [] => cases failed
  | ⟨node, []⟩ :: stack => cases failed
  | ⟨node, next :: rest⟩ :: stack =>
      simp only [step] at failed
      split at failed
      next onPath =>
        cases policy with
        | cut => cases failed
        | reject =>
            cases failed
            exact ⟨rfl, node, next, rest, stack, rfl, onPath_iff.mp onPath, rfl⟩
      next => split at failed <;> cases failed

/-- The reported modules are the stack from the target of the edge on. -/
theorem cycleTo_eq {w : Walk} {next : Nat} (closes : next ∈ w.stack.map Frame.node) :
    ∃ before after, (w.stack.map Frame.node).reverse = before ++ next :: after ∧
      w.cycleTo next = next :: after := by
  obtain ⟨before, after, split, first⟩ :=
    List.eq_append_cons_of_mem (List.mem_reverse.mpr closes)
  refine ⟨before, after, split, ?_⟩
  have skipped : ∀ i ∈ before, (i != next) = true := by
    intro i member
    exact bne_iff_ne.mpr fun same => first (same ▸ member)
  rw [cycleTo, split, List.dropWhile_append_of_pos skipped, List.dropWhile_cons_of_neg (by simp)]

/-- **An edge back to the stack closes a ring.** -/
theorem ring_of_closing {g : Graph} (simple : g.SimpleEdges) {node next : Nat} {rest : List Nat}
    {stack : List Frame} {done : EmissionOrder}
    (sound : Sound g ⟨⟨node, next :: rest⟩ :: stack, done⟩)
    (directed : Directed g ⟨⟨node, next :: rest⟩ :: stack, done⟩)
    (closes : next ∈ node :: stack.map Frame.node) :
    ∃ after, cycleTo ⟨⟨node, next :: rest⟩ :: stack, done⟩ next = next :: after ∧
      g.Ring next after := by
  obtain ⟨before, after, split, cycle⟩ :=
    cycleTo_eq (w := ⟨⟨node, next :: rest⟩ :: stack, done⟩) closes
  have edge : g.Edge node next := sound.edges _ List.mem_cons_self List.mem_cons_self
  rw [List.map_cons] at split
  -- the stack read from the outside is a path, and the edge leads on from its end
  have around : ((node :: stack.map Frame.node).reverse ++ [next]).IsChain g.Edge := by
    refine List.isChain_append.mpr ⟨List.isChain_reverse.mpr directed.path,
      List.isChain_singleton _, ?_⟩
    intro last isLast first isFirst
    rw [List.getLast?_reverse, List.head?_cons, Option.mem_some_iff] at isLast
    rw [List.head?_cons, Option.mem_some_iff] at isFirst
    rw [← isLast, ← isFirst]
    exact edge
  rw [split, List.append_assoc] at around
  have edges : (next :: after ++ [next]).IsChain g.Edge := (List.isChain_append.mp around).2.1
  have whole : (before ++ next :: after).Nodup := by
    rw [← split]
    exact List.nodup_reverse.mpr (List.nodup_append.mp sound.nodup).1
  refine ⟨after, cycle, ?_, (List.nodup_append.mp whole).2.1, edges, ?_⟩
  · rintro rfl
    exact simple.loopless next (List.isChain_cons_cons.mp edges).1
  · intro i member
    have onStack : i ∈ node :: stack.map Frame.node := by
      rw [← List.mem_reverse, split]
      exact List.mem_append_right _ member
    exact directed.inside i (List.mem_append_right _ onStack)

end Walk

/-- **What the rejecting policy reports is a cycle**, and the cutting policy reports
nothing. -/
theorem ring_of_order_error (simple : g.SimpleEdges) {cycle : List Nat}
    (failed : g.order policy = .error cycle) :
    policy = .reject ∧ ∃ first rest, cycle = first :: rest ∧ g.Ring first rest := by
  obtain ⟨w, reached, -, stops⟩ := order_error_reached simple.valid failed
  obtain ⟨rejects, node, next, rest, stack, top, closes, rfl⟩ := Walk.step_eq_error stops
  obtain ⟨frames, done⟩ := w
  subst top
  obtain ⟨after, cycle, ring⟩ :=
    Walk.ring_of_closing simple reached.sound (reached.directed simple) closes
  exact ⟨rejects, next, after, cycle, ring⟩

/-- **The cutting policy always comes to an order.** -/
theorem exists_order_cut (simple : g.SimpleEdges) :
    ∃ order, g.order .cut = .ok order := by
  cases ordered : g.order .cut with
  | ok order => exact ⟨order, rfl⟩
  | error cycle =>
      obtain ⟨rejects, -⟩ := ring_of_order_error simple ordered
      cases rejects

/-- The names along a ring, the first one again at the end. -/
theorem Ring.chain_eq {first : Nat} {rest : List Nat} (ring : g.Ring first rest) :
    (g.chain (first :: rest)).map some =
      (first :: rest ++ [first]).map fun i => (g.module? i).map Module.name := by
  rw [chain, List.take_succ_cons, List.take_zero, List.map_map]
  refine List.map_congr_left fun i member => ?_
  have here : i ∈ first :: rest := by
    rcases List.mem_append.mp member with inside | again
    · exact inside
    · exact List.mem_singleton.mp again ▸ List.mem_cons_self
  obtain ⟨m, found⟩ := Option.isSome_iff_exists.mp (module?_isSome_iff.mpr (ring.inside i here))
  simp [nameOf, found]

/-! ### The order under the two policies -/

/-- Of two modules in a list without repetition, the earlier one has the smaller index. -/
theorem idxOf_lt_of_sublist {l : List Nat} (pair : [i, j].Sublist l) (nodup : l.Nodup) :
    l.idxOf i < l.idxOf j := by
  obtain ⟨before, after, rfl, early, late⟩ := List.cons_sublist_iff.mp pair
  have later : j ∉ before := fun member =>
    (List.nodup_append.mp nodup).2.2 j member j (List.singleton_sublist.mp late) rfl
  rw [List.idxOf_append_of_mem early, List.idxOf_append_of_notMem later]
  exact Nat.lt_add_right _ (List.idxOf_lt_length_of_mem early)

/-- Only modules have edges. -/
theorem Edge.lt_length (edge : g.Edge i j) : i < g.nodes.length := by
  by_contra beyond
  have nothing : g.neighbors i = [] := by
    simp [neighbors, List.getElem?_eq_none (Nat.le_of_not_lt beyond)]
  rw [Edge, nothing] at edge
  cases edge

section Ordered

variable (simple : g.SimpleEdges) (ordered : g.order policy = .ok order)

include simple ordered

/-- **What was dropped**: edges that lie on cycles, each once, and whose importing module
comes first in the order. -/
theorem order_broken :
    order.broken.Nodup ∧ ∀ e ∈ order.broken, g.Edge e.1 e.2 ∧
      Relation.ReflTransGen g.Edge e.2 e.1 ∧
      order.modules.idxOf e.1 < order.modules.idxOf e.2 := by
  obtain ⟨w, reached, empty, rfl, -⟩ := order_ok_reached simple.valid ordered
  have directed := reached.directed simple
  have finished : w.line = w.done.modules := by
    rw [Walk.line, empty, List.map_nil, List.append_nil]
  refine ⟨directed.once, fun e dropped => ?_⟩
  obtain ⟨edge, back⟩ := directed.cyclic e dropped
  have behind := directed.behind e dropped
  rw [finished] at behind
  exact ⟨edge, back, idxOf_lt_of_sublist behind (order_ok simple.valid ordered).1⟩

/-- The modules of an order are those of the graph. -/
theorem order_perm : order.modules.Perm (List.range g.nodes.length) := by
  obtain ⟨nodup, -, -⟩ := order_ok simple.valid ordered
  obtain ⟨w, reached, -, rfl, complete⟩ := order_ok_reached simple.valid ordered
  refine (List.perm_ext_iff_of_nodup nodup List.nodup_range).mpr fun i => ?_
  rw [List.mem_range]
  exact ⟨fun member => (reached.directed simple).inside i (List.mem_append_left _ member),
    complete i⟩

/-- Every edge is respected. -/
theorem order_respects (edge : g.Edge i j) : order.Respects i j := by
  obtain ⟨-, complete, respects⟩ := order_ok simple.valid ordered
  exact respects i (complete i edge.lt_length) j edge

/-- Edges that were not dropped go back in the order, so they make no cycle. -/
theorem acyclic_of_order : Acyclic fun i j => g.Edge i j ∧ (i, j) ∉ order.broken := by
  refine acyclic_of_rank order.modules.idxOf ?_
  rintro i j ⟨edge, kept⟩
  exact (order_respects simple ordered edge).resolve_right kept

theorem acyclic_of_unbroken (none : order.broken = []) : Acyclic g.Edge := by
  have kept := acyclic_of_order simple ordered
  rw [none] at kept
  simpa using kept

end Ordered

namespace Walk

variable {w w' : Walk} {fuel : Nat}

/-- Where the rejecting policy does not stop, the two policies do the same. -/
theorem step_cut_of_reject (stepped : w.step g .reject = .ok w') :
    w.step g .cut = .ok w' := by
  obtain ⟨stack, done⟩ := w
  match stack with
  | [] => exact stepped
  | ⟨node, []⟩ :: stack => exact stepped
  | ⟨node, next :: rest⟩ :: stack =>
      simp only [step] at stepped ⊢
      split at stepped
      · cases stepped
      next offPath =>
        rw [if_neg offPath]
        exact stepped

theorem run_cut_of_reject (ran : run g .reject fuel w = .ok w') : run g .cut fuel w = .ok w' := by
  induction fuel generalizing w with
  | zero => exact ran
  | succ fuel ih =>
      rw [run] at ran ⊢
      split at ran
      next empty =>
        rw [if_pos empty]
        exact ran
      next more =>
        rw [if_neg more]
        cases stepped : w.step g .reject with
        | error cycle =>
            rw [stepped] at ran
            cases ran
        | ok w₁ =>
            rw [stepped] at ran
            rw [step_cut_of_reject stepped]
            exact ih ran

theorem root_cut_of_reject {id : Nat} (walked : root g .reject fuel w id = .ok w') :
    root g .cut fuel w id = .ok w' := by
  unfold root at walked ⊢
  split at walked
  next isWritten =>
    rw [if_pos isWritten]
    exact walked
  next unwritten =>
    rw [if_neg unwritten]
    exact run_cut_of_reject walked

theorem roots_cut_of_reject {ids : List Nat}
    (walked : ids.foldlM (root g .reject fuel) w = .ok w') :
    ids.foldlM (root g .cut fuel) w = .ok w' := by
  induction ids generalizing w with
  | nil => exact walked
  | cons id rest ih =>
      rw [List.foldlM_cons] at walked ⊢
      cases first : root g .reject fuel w id with
      | error cycle =>
          rw [first] at walked
          cases walked
      | ok w₁ =>
          rw [first] at walked
          rw [root_cut_of_reject first]
          exact ih walked

end Walk

/-- **An order made under the rejecting policy** is the one made under the other. -/
theorem order_cut_of_reject (ordered : g.order .reject = .ok order) : g.order .cut = .ok order := by
  unfold Graph.order at ordered ⊢
  cases walked : (List.range g.nodes.length).foldlM (Walk.root g .reject g.work) {} with
  | error cycle =>
      rw [walked] at ordered
      cases ordered
  | ok w =>
      rw [walked] at ordered
      rw [Walk.roots_cut_of_reject walked]
      exact ordered

end Graph

/-- **What an order owes to a graph with cycles.** -/
structure EmissionOrder.BreaksCycles (order : EmissionOrder) (g : Graph) : Prop where
  /-- Every module is in the order, once, and nothing else is. -/
  perm : order.modules.Perm (List.range g.nodes.length)
  /-- The target of an edge comes first, or the edge was dropped. -/
  respects : ∀ i j, g.Edge i j → order.Respects i j
  /-- Only edges were dropped, and only such as lie on a cycle. -/
  cyclic : ∀ e ∈ order.broken, g.Edge e.1 e.2 ∧ Relation.ReflTransGen g.Edge e.2 e.1
  once : order.broken.Nodup
  acyclic : Graph.Acyclic fun i j => g.Edge i j ∧ (i, j) ∉ order.broken

/-- **The cutting policy always comes to an order**, in which every module stands once and
behind those it imports, but for the dropped edges; these lie on cycles, and without them
there is no cycle. -/
theorem cutting_order_breaks_every_cycle {g : Graph} (simple : g.SimpleEdges) :
    ∃ order, g.order .cut = .ok order ∧ order.BreaksCycles g := by
  obtain ⟨order, ordered⟩ := Graph.exists_order_cut simple
  obtain ⟨once, dropped⟩ := Graph.order_broken simple ordered
  refine ⟨order, ordered, Graph.order_perm simple ordered, ?_, ?_, once,
    Graph.acyclic_of_order simple ordered⟩
  · intro i j edge
    exact Graph.order_respects simple ordered edge
  · intro e member
    obtain ⟨edge, back, -⟩ := dropped e member
    exact ⟨edge, back⟩

/-- A module that has nothing but imports. -/
def importsOnly (name : String) (dependencies : List String) : Module :=
  { name, scope := name, path := ⟨"/p/" ++ name ++ ".py"⟩, source := "", dependencies }

/-- `main` imports `a`, which imports `b`, which imports them both. -/
def ringGraph : Graph :=
  Graph.link
    { nodes := [⟨importsOnly "main" ["a"], []⟩, ⟨importsOnly "a" ["b"], []⟩,
        ⟨importsOnly "b" ["a", "main"], []⟩]
      index := [("main", 0), ("a", 1), ("b", 2)] }

theorem simpleEdges_ringGraph : ringGraph.SimpleEdges :=
  Graph.simpleEdges_link (Graph.indexValid_of_forall_mem (by decide))

/-- Both imports of `b` close a cycle and are dropped. -/
theorem cutting_order_breaks_every_cycle_ringGraph :
    ringGraph.SimpleEdges ∧ ∃ order, ringGraph.order .cut = .ok order ∧
      order.BreaksCycles ringGraph ∧ order.broken = [(2, 1), (2, 0)] := by
  obtain ⟨order, ordered, breaks⟩ := cutting_order_breaks_every_cycle simpleEdges_ringGraph
  have computed : ringGraph.order .cut = .ok ⟨[2, 1, 0], [(2, 1), (2, 0)]⟩ := by decide +kernel
  refine ⟨simpleEdges_ringGraph, order, ordered, breaks, ?_⟩
  rw [ordered] at computed
  cases computed
  rfl

/-- **The rejecting policy fails exactly on cycles.**  It comes to an order if and only if
the graph has no cycle; the order is then that of the cutting policy, and no edge was
dropped.  If it fails, it names the modules of a cycle, and the first of them again. -/
theorem rejecting_order_iff_acyclic {g : Graph} (simple : g.SimpleEdges) :
    ((∃ order, g.order .reject = .ok order) ↔ Graph.Acyclic g.Edge) ∧
    (∀ order, g.order .reject = .ok order → g.order .cut = .ok order ∧ order.broken = []) ∧
    ∀ cycle, g.order .reject = .error cycle → ∃ first rest, g.Ring first rest ∧
      (g.chain cycle).map some =
        (first :: rest ++ [first]).map fun i => (g.module? i).map Module.name := by
  refine ⟨⟨?_, fun acyclic => ?_⟩, fun order ordered => ?_, fun cycle failed => ?_⟩
  · rintro ⟨order, ordered⟩
    exact Graph.acyclic_of_unbroken simple ordered (Graph.order_reject simple.valid ordered)
  · cases ordered : g.order .reject with
    | ok order => exact ⟨order, rfl⟩
    | error cycle =>
        obtain ⟨-, first, rest, -, ring⟩ := Graph.ring_of_order_error simple ordered
        exact absurd acyclic ring.not_acyclic
  · exact ⟨Graph.order_cut_of_reject ordered, Graph.order_reject simple.valid ordered⟩
  · obtain ⟨-, first, rest, rfl, ring⟩ := Graph.ring_of_order_error simple failed
    exact ⟨first, rest, ring, ring.chain_eq⟩

/-- The cycle of `a` and `b` is found before that through `main`. -/
theorem rejecting_order_iff_acyclic_ringGraph :
    ringGraph.SimpleEdges ∧ ¬ Graph.Acyclic ringGraph.Edge ∧
      ∃ first rest, ringGraph.Ring first rest ∧
        (first :: rest ++ [first]).map (fun i => (ringGraph.module? i).map Module.name) =
          [some "a", some "b", some "a"] := by
  obtain ⟨ordered, -, fails⟩ := rejecting_order_iff_acyclic simpleEdges_ringGraph
  have computed : ringGraph.order .reject = .error [1, 2] := by decide +kernel
  refine ⟨simpleEdges_ringGraph, fun acyclic => ?_, ?_⟩
  · obtain ⟨order, succeeds⟩ := ordered.mpr acyclic
    rw [computed] at succeeds
    cases succeeds
  · obtain ⟨first, rest, ring, names⟩ := fails [1, 2] computed
    refine ⟨first, rest, ring, ?_⟩
    rw [← names]
    decide +kernel

end Amalgam
