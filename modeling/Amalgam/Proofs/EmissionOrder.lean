import Amalgam.Graph.Order
import Amalgam.Proofs.FreshNames
import Mathlib.Algebra.BigOperators.Group.Finset.Basic
import Mathlib.Algebra.Order.BigOperators.Group.Finset
import Mathlib.Data.List.Nodup

/-!
# The order of emission is an order of dependencies

The order is made by a depth-first walk with a stack of frames and a bound on the number
of steps.  Two things are proved of the walk, both by what one step does.

**What is on the stack is accounted for.**  A frame holds a module and the edges it has
still to follow; every edge that it does not hold leads to a module that is written, to
the module of the frame above, or was dropped (`Walk.Accounted`).  A module is written
when its frame holds no edge and no frame is above it, so all its edges lead to modules
written before it, the dropped ones apart.

**The bound is never reached.**  `Walk.due` counts the frames on the stack, the edges
they hold, and for each module that the walk has not come to, its frame and its edges.
Every step uses up one, and at the start there are at most `Graph.work`, so a walk that
ends without a cycle ends with an empty stack.

The walks that come up on the way to an order are the `Walk.Reached` ones, and what is
said of an order is proved of all of them by induction.

## Main statements

* `Walk.Sound.step`, `Walk.due_step` — one step
* `Walk.run_yields`, `Walk.roots_yield` — a walk from one module, and from all
* `Graph.order_ok_reached`, `Graph.order_error_reached` — the walk behind an order, and
  behind a cycle
* `Graph.order_ok` — every module is in the order once, behind the modules it imports
* `Graph.order_reject` — under the rejecting policy no edge is dropped
-/

namespace Amalgam

/-- An edge that the order respects: its target is written first, or it was dropped. -/
def EmissionOrder.Respects (o : EmissionOrder) (i t : Nat) : Prop :=
  o.modules.idxOf t < o.modules.idxOf i ∨ (i, t) ∈ o.broken

namespace Graph

/-- Edges lead to modules. -/
def EdgesValid (g : Graph) : Prop :=
  ∀ i, ∀ t ∈ g.neighbors i, t < g.nodes.length

namespace Walk

/-! ### The invariant -/

/-- The edges of the modules on a stack: each is still to be followed, or leads to the
module `child` of the frame above, to one that is written, or was dropped. -/
def Accounted (g : Graph) (done : EmissionOrder) : Option Nat → List Frame → Prop
  | _, [] => True
  | child, f :: below =>
    (∀ t ∈ g.neighbors f.node,
      t ∈ f.rest ∨ child = some t ∨ t ∈ done.modules ∨ (f.node, t) ∈ done.broken) ∧
    Accounted g done (some f.node) below

/-- **The invariant of a walk.** -/
structure Sound (g : Graph) (w : Walk) : Prop where
  nodup : (w.stack.map Frame.node ++ w.done.modules).Nodup
  edges : ∀ f ∈ w.stack, f.rest ⊆ g.neighbors f.node
  accounted : Accounted g w.done none w.stack
  respects : ∀ i ∈ w.done.modules, ∀ t ∈ g.neighbors i, w.done.Respects i t

variable {g : Graph} {w w' : Walk} {policy : CyclePolicy} {i : Nat} {done : EmissionOrder}

/-- Writing more modules and dropping more edges keeps a stack accounted for. -/
theorem Accounted.mono {done' : EmissionOrder} {child child' : Option Nat} {stack : List Frame}
    (accounted : Accounted g done child stack)
    (above : ∀ t, child = some t → child' = some t ∨ t ∈ done'.modules)
    (modules : done.modules ⊆ done'.modules) (broken : done.broken ⊆ done'.broken) :
    Accounted g done' child' stack := by
  induction stack generalizing child child' with
  | nil => trivial
  | cons f below ih =>
      refine ⟨fun t edge => ?_, ih accounted.2 fun t same => Or.inl same⟩
      rcases accounted.1 t edge with left | up | written | dropped
      · exact Or.inl left
      · exact Or.inr ((above t up).imp_right Or.inl)
      · exact Or.inr (Or.inr (Or.inl (modules written)))
      · exact Or.inr (Or.inr (Or.inr (broken dropped)))

/-- The walk has come to the module. -/
def Touched (w : Walk) (i : Nat) : Prop :=
  i ∈ w.stack.map Frame.node ∨ i ∈ w.done.modules

theorem onPath_iff : w.onPath i = true ↔ i ∈ w.stack.map Frame.node := by
  simp [onPath]

theorem written_iff : w.written i = true ↔ i ∈ w.done.modules := by
  simp [written]

/-! ### One step -/

/-- **The four things a step can be.** -/
inductive Stepped (g : Graph) (policy : CyclePolicy) : Walk → Walk → Prop where
  /-- A module without edges left is written. -/
  | write (node : Nat) (stack : List Frame) (done : EmissionOrder) :
      Stepped g policy ⟨⟨node, []⟩ :: stack, done⟩
        ⟨stack, { done with modules := done.modules ++ [node] }⟩
  /-- An edge that closes a cycle is dropped. -/
  | drop (node next : Nat) (rest : List Nat) (stack : List Frame) (done : EmissionOrder)
      (cut : policy = .cut) (closes : next ∈ node :: stack.map Frame.node) :
      Stepped g policy ⟨⟨node, next :: rest⟩ :: stack, done⟩
        ⟨⟨node, rest⟩ :: stack, { done with broken := done.broken ++ [(node, next)] }⟩
  /-- An edge leads to a module that is written. -/
  | pass (node next : Nat) (rest : List Nat) (stack : List Frame) (done : EmissionOrder)
      (written : next ∈ done.modules) :
      Stepped g policy ⟨⟨node, next :: rest⟩ :: stack, done⟩ ⟨⟨node, rest⟩ :: stack, done⟩
  /-- An edge leads to a module that the walk has not come to. -/
  | enter (node next : Nat) (rest : List Nat) (stack : List Frame) (done : EmissionOrder)
      (new : ¬ Touched ⟨⟨node, next :: rest⟩ :: stack, done⟩ next) :
      Stepped g policy ⟨⟨node, next :: rest⟩ :: stack, done⟩
        ⟨⟨next, g.neighbors next⟩ :: ⟨node, rest⟩ :: stack, done⟩

theorem stepped_of_step (more : w.stack ≠ []) (stepped : w.step g policy = .ok w') :
    Stepped g policy w w' := by
  obtain ⟨stack, done⟩ := w
  match stack with
  | [] => exact absurd rfl more
  | ⟨node, []⟩ :: stack =>
      cases stepped
      exact .write node stack done
  | ⟨node, next :: rest⟩ :: stack =>
      simp only [step] at stepped
      split at stepped
      next onPath =>
        cases policy with
        | reject => cases stepped
        | cut =>
            cases stepped
            exact .drop node next rest stack done rfl (onPath_iff.mp onPath)
      next offPath =>
        split at stepped
        next isWritten =>
          cases stepped
          exact .pass node next rest stack done (written_iff.mp isWritten)
        next unwritten =>
          cases stepped
          refine .enter node next rest stack done ?_
          rintro (onPath | isWritten)
          · exact offPath (onPath_iff.mpr onPath)
          · exact unwritten (written_iff.mpr isWritten)

/-- A step forgets no module. -/
theorem Stepped.touched (stepped : Stepped g policy w w') (touched : w.Touched i) :
    w'.Touched i := by
  cases stepped with
  | write node stack done =>
      rcases touched with onPath | written
      · rcases List.mem_cons.mp onPath with rfl | below
        · exact Or.inr (List.mem_append_right _ List.mem_cons_self)
        · exact Or.inl below
      · exact Or.inr (List.mem_append_left _ written)
  | drop => exact touched
  | pass => exact touched
  | enter => exact touched.imp_left (List.mem_cons_of_mem _)

/-- A module that is written last is behind all others. -/
theorem respects_append {node t : Nat} (fresh : node ∉ done.modules)
    (respects : (i ∈ done.modules ∧ done.Respects i t) ∨
      i = node ∧ (t ∈ done.modules ∨ (node, t) ∈ done.broken)) :
    ({ done with modules := done.modules ++ [node] } : EmissionOrder).Respects i t := by
  rcases respects with ⟨written, before | dropped⟩ | ⟨rfl, target | dropped⟩
  · have target : t ∈ done.modules :=
      List.idxOf_lt_length_iff.mp (before.trans_le List.idxOf_le_length)
    refine Or.inl ?_
    rw [List.idxOf_append_of_mem target, List.idxOf_append_of_mem written]
    exact before
  · exact Or.inr dropped
  · refine Or.inl ?_
    rw [List.idxOf_append_of_mem target, List.idxOf_append_of_notMem fresh]
    exact Nat.lt_add_right _ (List.idxOf_lt_length_of_mem target)
  · exact Or.inr dropped

/-- A frame that has followed an edge holds the others. -/
theorem edges_tail {node next : Nat} {rest : List Nat} {stack : List Frame}
    (edges : ∀ f ∈ (⟨node, next :: rest⟩ : Frame) :: stack, f.rest ⊆ g.neighbors f.node) :
    ∀ f ∈ (⟨node, rest⟩ : Frame) :: stack, f.rest ⊆ g.neighbors f.node := by
  intro f member
  rcases List.mem_cons.mp member with rfl | below
  · exact fun t held => edges _ List.mem_cons_self (List.mem_cons_of_mem _ held)
  · exact edges f (List.mem_cons_of_mem _ below)

/-- **One step keeps the invariant.** -/
theorem Sound.step (sound : w.Sound g) (stepped : Stepped g policy w w') : w'.Sound g := by
  obtain ⟨nodup, edges, accounted, respects⟩ := sound
  cases stepped with
  | write node stack done =>
      have moved : (stack.map Frame.node ++ (done.modules ++ [node])).Perm
          (node :: (stack.map Frame.node ++ done.modules)) := by
        rw [← List.append_assoc]
        exact List.perm_append_singleton node _
      have fresh : node ∉ done.modules := fun member =>
        (List.nodup_cons.mp nodup).1 (List.mem_append_right _ member)
      refine ⟨moved.nodup_iff.mpr nodup, ?_, ?_, ?_⟩
      · exact fun f member => edges f (List.mem_cons_of_mem _ member)
      · refine accounted.2.mono (fun t same => ?_) (List.subset_append_left _ _) (List.Subset.refl _)
        cases same
        exact Or.inr (List.mem_append_right _ List.mem_cons_self)
      · intro i member t edge
        refine respects_append fresh ?_
        rcases List.mem_append.mp member with before | last
        · exact Or.inl ⟨before, respects i before t edge⟩
        · cases List.mem_singleton.mp last
          refine Or.inr ⟨rfl, ?_⟩
          -- no edge is left to follow and no frame is above
          rcases accounted.1 t edge with none | none | settled
          · cases none
          · cases none
          · exact settled
  | drop node next rest stack done =>
      refine ⟨nodup, edges_tail edges, ⟨fun t edge => ?_, ?_⟩, fun i member t edge => ?_⟩
      · rcases accounted.1 t edge with held | none | written | dropped
        · rcases List.mem_cons.mp held with rfl | later
          · exact Or.inr (Or.inr (Or.inr (List.mem_append_right _ List.mem_cons_self)))
          · exact Or.inl later
        · cases none
        · exact Or.inr (Or.inr (Or.inl written))
        · exact Or.inr (Or.inr (Or.inr (List.mem_append_left _ dropped)))
      · exact accounted.2.mono (fun _ same => Or.inl same) (List.Subset.refl _)
          (List.subset_append_left _ _)
      · exact (respects i member t edge).imp_right (List.mem_append_left _)
  | pass node next rest stack done written =>
      refine ⟨nodup, edges_tail edges, ⟨fun t edge => ?_, accounted.2⟩, respects⟩
      rcases accounted.1 t edge with held | settled
      · rcases List.mem_cons.mp held with rfl | later
        · exact Or.inr (Or.inr (Or.inl written))
        · exact Or.inl later
      · exact Or.inr settled
  | enter node next rest stack done new =>
      refine ⟨?_, ?_, ⟨fun t edge => Or.inl edge, ⟨fun t edge => ?_, accounted.2⟩⟩, respects⟩
      · refine List.nodup_cons.mpr ⟨fun member => new ?_, nodup⟩
        exact List.mem_append.mp member
      · intro f member
        rcases List.mem_cons.mp member with rfl | under
        · exact List.Subset.refl _
        · exact edges_tail edges f under
      · rcases accounted.1 t edge with held | none | settled
        · rcases List.mem_cons.mp held with rfl | later
          · exact Or.inr (Or.inl rfl)
          · exact Or.inl later
        · cases none
        · exact Or.inr (Or.inr settled)

/-! ### The walks of an order -/

/-- **The walks that an order comes to**: the empty one, one that begins at a module that
is not written, and one step from any of them. -/
inductive Reached (g : Graph) (policy : CyclePolicy) : Walk → Prop where
  | start : Reached g policy {}
  | root {w : Walk} {id : Nat} (reached : Reached g policy w) (empty : w.stack = [])
      (inside : id < g.nodes.length) (fresh : id ∉ w.done.modules) :
      Reached g policy { w with stack := [⟨id, g.neighbors id⟩] }
  | step {w w' : Walk} (reached : Reached g policy w) (stepped : Stepped g policy w w') :
      Reached g policy w'

/-- **Every walk of an order is sound.** -/
theorem Reached.sound (reached : Reached g policy w) : w.Sound g := by
  induction reached with
  | start => exact ⟨List.nodup_nil, by simp, trivial, by simp⟩
  | @root w id _ empty _ fresh sound =>
      have nodup := sound.nodup
      rw [empty] at nodup
      refine ⟨List.nodup_cons.mpr ⟨fresh, nodup⟩, ?_, ⟨fun t edge => Or.inl edge, trivial⟩,
        sound.respects⟩
      intro f member
      cases List.mem_singleton.mp member
      exact List.Subset.refl _
  | step _ stepped sound => exact sound.step stepped

/-- Under the rejecting policy no edge is dropped. -/
theorem Reached.broken_reject (reached : Reached g .reject w) :
    w.done.broken = [] := by
  induction reached with
  | start => rfl
  | root _ _ _ _ none => exact none
  | step _ stepped none =>
      cases stepped with
      | write => exact none
      | drop _ _ _ _ _ cut => cases cut
      | pass => exact none
      | enter => exact none

/-! ### The bound -/

/-- The frame of a module, and its edges. -/
def cost (g : Graph) (i : Nat) : Nat :=
  (g.neighbors i).length + 1

open Classical in
/-- The modules that the walk has not come to. -/
noncomputable def pending (g : Graph) (w : Walk) : Finset Nat :=
  (Finset.range g.nodes.length).filter fun i => ¬ w.Touched i

/-- What the walk can still use up. -/
noncomputable def due (g : Graph) (w : Walk) : Nat :=
  w.stack.foldr (fun f total => f.rest.length + 1 + total) 0 + ∑ i ∈ w.pending g, cost g i

theorem mem_pending :
    i ∈ w.pending g ↔ i < g.nodes.length ∧ ¬ w.Touched i := by
  classical
  simp [pending]

/-- A walk that has come to the same modules has the same ones before it. -/
theorem pending_congr (same : ∀ i, w'.Touched i ↔ w.Touched i) :
    w'.pending g = w.pending g := by
  ext i
  rw [mem_pending, mem_pending, same]

/-- **Every step uses something up.** -/
theorem due_step (valid : g.EdgesValid) (sound : w.Sound g) (stepped : Stepped g policy w w') :
    w'.due g + 1 = w.due g := by
  cases stepped with
  | write node stack done =>
      -- the module goes from the stack to the order, so no other is left to come to
      have same : ∀ i, Touched ⟨stack, { done with modules := done.modules ++ [node] }⟩ i ↔
          Touched ⟨⟨node, []⟩ :: stack, done⟩ i := by
        intro i
        simp only [Touched, List.map_cons, List.mem_cons, List.mem_append, List.not_mem_nil,
          or_false]
        tauto
      rw [due, due, pending_congr same, List.foldr_cons]
      simp only [List.length_nil]
      omega
  | drop node next rest stack done =>
      have same : pending g ⟨⟨node, rest⟩ :: stack,
          { done with broken := done.broken ++ [(node, next)] }⟩ =
          pending g ⟨⟨node, next :: rest⟩ :: stack, done⟩ := pending_congr fun i => Iff.rfl
      rw [due, due, same]
      simp only [List.foldr_cons, List.length_cons]
      omega
  | pass node next rest stack done =>
      have same : pending g ⟨⟨node, rest⟩ :: stack, done⟩ =
          pending g ⟨⟨node, next :: rest⟩ :: stack, done⟩ := pending_congr fun i => Iff.rfl
      rw [due, due, same]
      simp only [List.foldr_cons, List.length_cons]
      omega
  | enter node next rest stack done new =>
      have edge : next ∈ g.neighbors node :=
        sound.edges ⟨node, next :: rest⟩ List.mem_cons_self List.mem_cons_self
      have before : next ∈ pending g ⟨⟨node, next :: rest⟩ :: stack, done⟩ :=
        mem_pending.mpr ⟨valid node next edge, new⟩
      have entered : pending g ⟨⟨next, g.neighbors next⟩ :: ⟨node, rest⟩ :: stack, done⟩ =
          (pending g ⟨⟨node, next :: rest⟩ :: stack, done⟩).erase next := by
        ext i
        simp only [Finset.mem_erase, mem_pending, Touched, List.map_cons, List.mem_cons]
        tauto
      -- what the new frame holds was counted for the module before
      have counted := Finset.add_sum_erase _ (cost g) before
      rw [due, due, entered, ← counted]
      simp only [List.foldr_cons, List.length_cons, cost]
      omega

/-! ### Whole walks -/

/-- What walking on from the walks of an order gives: another one, with an empty stack and
come to all modules in `seen`, or the cycle that one of them runs into. -/
def Yields (g : Graph) (policy : CyclePolicy) (seen : Nat → Prop) :
    Except (List Nat) Walk → Prop
  | .ok w => Reached g policy w ∧ w.stack = [] ∧ ∀ i, seen i → w.Touched i
  | .error cycle => ∃ w, Reached g policy w ∧ w.stack ≠ [] ∧ w.step g policy = .error cycle

theorem Yields.mono {seen seen' : Nat → Prop} {outcome : Except (List Nat) Walk}
    (yields : Yields g policy seen outcome) (fewer : ∀ i, seen' i → seen i) :
    Yields g policy seen' outcome := by
  cases outcome with
  | error cycle => exact yields
  | ok w =>
      obtain ⟨reached, empty, touched⟩ := yields
      exact ⟨reached, empty, fun i member => touched i (fewer i member)⟩

/-- **A walk with enough steps to make** ends with an empty stack, or runs into a cycle. -/
theorem run_yields (valid : g.EdgesValid) {fuel : Nat} (reached : Reached g policy w)
    (enough : w.due g ≤ fuel) :
    Yields g policy w.Touched (run g policy fuel w) := by
  induction fuel generalizing w with
  | zero =>
      refine ⟨reached, ?_, fun _ touched => touched⟩
      rcases stack : w.stack with _ | ⟨f, below⟩
      · rfl
      · rw [due, stack, List.foldr_cons] at enough
        omega
  | succ fuel ih =>
      rw [run]
      split
      next empty => exact ⟨reached, empty, fun _ touched => touched⟩
      next more =>
        split
        next w₁ step =>
          have stepped := stepped_of_step more step
          have used := due_step valid reached.sound stepped
          exact (ih (reached.step stepped) (by omega)).mono fun _ touched =>
            stepped.touched touched
        next cycle failed => exact ⟨w, reached, more, failed⟩

/-- The frames and edges of all modules. -/
theorem work_eq (g : Graph) : g.work = ∑ i ∈ Finset.range g.nodes.length, cost g i := by
  unfold work cost neighbors
  induction g.nodes with
  | nil => rfl
  | cons node rest ih =>
      rw [List.foldr_cons, List.length_cons, Finset.sum_range_succ', ih]
      simp only [List.getElem?_cons_succ, List.getElem?_cons_zero, Option.map_some,
        Option.getD_some]
      omega

/-- A walk that starts at a module has at most all frames and edges to use up. -/
theorem due_start_le {id : Nat} (inside : id < g.nodes.length) :
    due g ⟨[⟨id, g.neighbors id⟩], done⟩ ≤ g.work := by
  have started : id ∉ pending g ⟨[⟨id, g.neighbors id⟩], done⟩ :=
    fun member => (mem_pending.mp member).2 (Or.inl List.mem_cons_self)
  have within : insert id (pending g ⟨[⟨id, g.neighbors id⟩], done⟩) ⊆
      Finset.range g.nodes.length := by
    intro i member
    rcases Finset.mem_insert.mp member with rfl | later
    · exact Finset.mem_range.mpr inside
    · exact Finset.mem_range.mpr (mem_pending.mp later).1
  calc due g ⟨[⟨id, g.neighbors id⟩], done⟩
      = cost g id + ∑ i ∈ pending g ⟨[⟨id, g.neighbors id⟩], done⟩, cost g i := by
        rw [due, List.foldr_cons, List.foldr_nil, cost, Nat.add_zero]
    _ = ∑ i ∈ insert id (pending g ⟨[⟨id, g.neighbors id⟩], done⟩), cost g i :=
        (Finset.sum_insert started).symm
    _ ≤ ∑ i ∈ Finset.range g.nodes.length, cost g i := Finset.sum_le_sum_of_subset within
    _ = g.work := (work_eq g).symm

/-- **A walk from one module** comes to it. -/
theorem root_yields (valid : g.EdgesValid) {id : Nat} (inside : id < g.nodes.length)
    (reached : Reached g policy w) (empty : w.stack = []) :
    Yields g policy (fun i => i = id ∨ w.Touched i) (root g policy g.work w id) := by
  unfold root
  split
  next isWritten =>
    refine ⟨reached, empty, ?_⟩
    rintro i (rfl | touched)
    · exact Or.inr (written_iff.mp isWritten)
    · exact touched
  next unwritten =>
    have fresh : id ∉ w.done.modules := fun member => unwritten (written_iff.mpr member)
    refine (run_yields valid (reached.root empty inside fresh) (due_start_le inside)).mono ?_
    rintro i (rfl | onPath | written)
    · exact Or.inl List.mem_cons_self
    · rw [empty] at onPath
      cases onPath
    · exact Or.inr written

/-- **Walks from several modules** come to them all. -/
theorem roots_yield (valid : g.EdgesValid) {ids : List Nat}
    (inside : ∀ id ∈ ids, id < g.nodes.length) (reached : Reached g policy w)
    (empty : w.stack = []) :
    Yields g policy (fun i => i ∈ ids ∨ w.Touched i) (ids.foldlM (root g policy g.work) w) := by
  induction ids generalizing w with
  | nil => exact ⟨reached, empty, fun i seen => seen.resolve_left List.not_mem_nil⟩
  | cons id rest ih =>
      have first := root_yields valid (inside id List.mem_cons_self) reached empty
      rw [List.foldlM_cons]
      cases walked : root g policy g.work w id with
      | error cycle =>
          rw [walked] at first
          exact first
      | ok w₁ =>
          rw [walked] at first
          obtain ⟨reached₁, empty₁, touched⟩ := first
          refine (ih (fun other member => inside other (List.mem_cons_of_mem _ member)) reached₁
            empty₁).mono ?_
          rintro i (member | before)
          · rcases List.mem_cons.mp member with rfl | later
            · exact Or.inr (touched i (Or.inl rfl))
            · exact Or.inl later
          · exact Or.inr (touched i (Or.inr before))

end Walk

/-! ### The order -/

variable {g : Graph} {policy : CyclePolicy} {order : EmissionOrder}

/-- All walks of an order, from the first to the last. -/
theorem walks_yield (valid : g.EdgesValid) (policy : CyclePolicy) :
    Walk.Yields g policy (· < g.nodes.length)
      ((List.range g.nodes.length).foldlM (Walk.root g policy g.work) {}) :=
  (Walk.roots_yield valid (fun _ member => List.mem_range.mp member) .start rfl).mono
    fun _ inside => Or.inl (List.mem_range.mpr inside)

/-- **The walk behind an order** has written every module. -/
theorem order_ok_reached (valid : g.EdgesValid) (ordered : g.order policy = .ok order) :
    ∃ w, Walk.Reached g policy w ∧ w.stack = [] ∧ w.done = order ∧
      ∀ i < g.nodes.length, i ∈ order.modules := by
  have yields := walks_yield valid policy
  unfold Graph.order at ordered
  cases walked : (List.range g.nodes.length).foldlM (Walk.root g policy g.work) {} with
  | error cycle =>
      rw [walked] at ordered
      cases ordered
  | ok w =>
      rw [walked] at ordered yields
      cases ordered
      obtain ⟨reached, empty, touched⟩ := yields
      refine ⟨w, reached, empty, rfl, fun i inside => ?_⟩
      rcases touched i inside with onPath | written
      · rw [empty] at onPath
        cases onPath
      · exact written

/-- **The walk behind a cycle** stops at its next step. -/
theorem order_error_reached (valid : g.EdgesValid) {cycle : List Nat}
    (failed : g.order policy = .error cycle) :
    ∃ w, Walk.Reached g policy w ∧ w.stack ≠ [] ∧ w.step g policy = .error cycle := by
  have yields := walks_yield valid policy
  unfold Graph.order at failed
  cases walked : (List.range g.nodes.length).foldlM (Walk.root g policy g.work) {} with
  | ok w =>
      rw [walked] at failed
      cases failed
  | error found =>
      rw [walked] at failed yields
      cases failed
      exact yields

/-- **Every module is in the order once, behind the modules it imports**, edges that were
dropped apart. -/
theorem order_ok (valid : g.EdgesValid) (ordered : g.order policy = .ok order) :
    order.modules.Nodup ∧ (∀ i < g.nodes.length, i ∈ order.modules) ∧
      ∀ i ∈ order.modules, ∀ t ∈ g.neighbors i, order.Respects i t := by
  obtain ⟨w, reached, empty, rfl, complete⟩ := order_ok_reached valid ordered
  have nodup := reached.sound.nodup
  rw [empty] at nodup
  exact ⟨nodup, complete, reached.sound.respects⟩

/-- Under the rejecting policy no edge is dropped. -/
theorem order_reject (valid : g.EdgesValid) (ordered : g.order .reject = .ok order) :
    order.broken = [] := by
  obtain ⟨w, reached, -, rfl, -⟩ := order_ok_reached valid ordered
  exact reached.broken_reject

end Graph

end Amalgam
