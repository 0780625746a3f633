import Amalgam.Proofs.CycleBreaking
import Mathlib.Data.Finset.Card
import Mathlib.Logic.Relation

/-!
# The order of emission as a recursion

The order of emission is made by a walk that keeps its own stack.  Here is the recursion
that the walk unrolls: to visit a module, follow its edges in order, visiting each module
that was not visited before, and then write the module (`Graph.visit`).  The modules that
are being visited are those that the recursion is inside of, `outer`; an edge to one of them
leads back.  `Graph.postorder` visits all modules in the order in which they were found.

**The simulation.**  A frame of the walk is a call of the recursion under way: its module is
being visited, and the edges it holds are those still to be followed.  What the recursion
makes of these edges, the walk makes of them in a number of steps, and the frames below stay
as they are (`Walk.leads_visitEach`).  A call that ends in a cycle is a walk that comes to a
step which fails; the names that the recursion reports are read off the calls from the inner
one outwards, those of the walk off its stack from the other end, and they agree because no
module is on the stack twice.

## Main statements

* `Walk.leads_visitEach` — the steps behind a call
* `Walk.run_of_steps` — a bounded walk takes the steps there are
* `order_eq_postorder` — the walk and the recursion give the same
-/

namespace Amalgam

namespace Graph

/-! ### The recursion -/

/-- How many modules are not on a path. -/
def offPath (g : Graph) (path : List Nat) : Nat :=
  (Finset.range g.nodes.length \ path.toFinset).card

theorem offPath_cons (g : Graph) (path : List Nat) (id : Nat) :
    g.offPath (id :: path) = ((Finset.range g.nodes.length \ path.toFinset).erase id).card := by
  rw [offPath, List.toFinset_cons, Finset.sdiff_insert]

/-- **A call inside another has fewer modules before it**, or no edges to follow. -/
theorem offPath_enter {g : Graph} {path : List Nat} {id : Nat} (off : id ∉ path) :
    g.offPath (id :: path) < g.offPath path ∨
      g.offPath (id :: path) = g.offPath path ∧ g.neighbors id = [] := by
  rw [offPath_cons, offPath]
  by_cases inside : id < g.nodes.length
  · refine Or.inl (Finset.card_erase_lt_of_mem ?_)
    rw [Finset.mem_sdiff, Finset.mem_range, List.mem_toFinset]
    exact ⟨inside, off⟩
  · refine Or.inr ⟨congrArg Finset.card (Finset.erase_eq_of_notMem fun member => ?_), ?_⟩
    · exact inside (Finset.mem_range.mp (Finset.mem_sdiff.mp member).1)
    · rw [neighbors, List.getElem?_eq_none (Nat.le_of_not_lt inside)]
      rfl

/-- The names of the cycle that an edge to `back` closes: from `back` inwards along a path,
whose innermost module comes first, and `back` again. -/
def closedPath (g : Graph) (path : List Nat) (back : Nat) : List String :=
  (back :: (path.takeWhile (· != back)).reverse ++ [back]).map g.nameOf

/-- **Follows edges of a module that is being visited**, inside of visits to `outer`.  The
policy says what becomes of an edge to a module that is being visited; an edge to a module
that is written needs nothing; any other module is visited and then written. -/
def visitEach (g : Graph) (policy : CyclePolicy) (node : Nat) (outer : List Nat) :
    List Nat → EmissionOrder → Except (List String) EmissionOrder
  | [], order => .ok order
  | next :: rest, order =>
    if next ∈ node :: outer then
      match policy with
      | .reject => .error (g.closedPath (node :: outer) next)
      | .cut =>
        visitEach g .cut node outer rest { order with broken := order.broken ++ [(node, next)] }
    else if next ∈ order.modules then visitEach g policy node outer rest order
    else do
      let order ← visitEach g policy next (node :: outer) (g.neighbors next) order
      visitEach g policy node outer rest { order with modules := order.modules ++ [next] }
termination_by edges => (g.offPath (node :: outer), edges.length)
decreasing_by
  · exact Prod.Lex.right _ (Nat.lt_succ_self _)
  · exact Prod.Lex.right _ (Nat.lt_succ_self _)
  · next offPath _ =>
    rcases g.offPath_enter offPath with fewer | ⟨same, none⟩
    · exact Prod.Lex.left _ _ fewer
    · rw [same, none]
      exact Prod.Lex.right _ (Nat.succ_pos _)
  · exact Prod.Lex.right _ (Nat.lt_succ_self _)

/-- **Visits a module** that was not visited before, inside of visits to `outer`: follows its
edges, then writes it. -/
def visit (g : Graph) (policy : CyclePolicy) (outer : List Nat) (order : EmissionOrder)
    (node : Nat) : Except (List String) EmissionOrder := do
  let order ← g.visitEach policy node outer (g.neighbors node) order
  return { order with modules := order.modules ++ [node] }

/-- **The order as a recursion**: every module in turn is visited, unless it is written. -/
def postorder (g : Graph) (policy : CyclePolicy) : Except (List String) EmissionOrder :=
  (List.range g.nodes.length).foldlM
    (fun order id => if id ∈ order.modules then .ok order else g.visit policy [] order id) {}

namespace Walk

open Relation (ReflTransGen)

/-! ### The simulation -/

/-- Where steps lead from a walk, by the outcome of the calls that they belong to: to the
walk that goes with the order they return, or to a step that fails. -/
def Leads (g : Graph) (policy : CyclePolicy) (w : Walk) (goal : EmissionOrder → Walk) :
    Except (List String) EmissionOrder → Prop
  | .ok order => ReflTransGen (Stepped g policy) w (goal order)
  | .error names => ∃ last cycle, ReflTransGen (Stepped g policy) w last ∧ last.stack ≠ [] ∧
      last.step g policy = .error cycle ∧ g.chain cycle = names

variable {g : Graph} {policy : CyclePolicy} {w w' : Walk}

/-- Steps come before. -/
theorem Leads.head {goal : EmissionOrder → Walk} {outcome : Except (List String) EmissionOrder}
    (steps : ReflTransGen (Stepped g policy) w w') (leads : Leads g policy w' goal outcome) :
    Leads g policy w goal outcome := by
  cases outcome with
  | ok order => exact steps.trans leads
  | error names =>
      obtain ⟨last, cycle, onward, fails⟩ := leads
      exact ⟨last, cycle, steps.trans onward, fails⟩

/-- Calls come one after the other. -/
theorem Leads.bind {goal goal' : EmissionOrder → Walk}
    {outcome : Except (List String) EmissionOrder}
    {next : EmissionOrder → Except (List String) EmissionOrder}
    (leads : Leads g policy w goal outcome)
    (onward : ∀ order, Leads g policy (goal order) goal' (next order)) :
    Leads g policy w goal' (outcome >>= next) := by
  cases outcome with
  | ok order => exact (onward order).head leads
  | error names => exact leads

/-- **A cycle read from its two ends.**  No module is on the path twice, so the modules
inside of `back` are the same, whether the path is read inwards or outwards. -/
theorem chain_cycleTo (g : Graph) {back : Nat} (nodup : (w.stack.map Frame.node).Nodup)
    (onPath : back ∈ w.stack.map Frame.node) :
    g.chain (w.cycleTo back) = g.closedPath (w.stack.map Frame.node) back := by
  obtain ⟨outside, inner, path, cycle⟩ := cycleTo_eq onPath
  have inwards : w.stack.map Frame.node = inner.reverse ++ back :: outside.reverse := by
    rw [← List.reverse_reverse (w.stack.map Frame.node), path, List.reverse_append,
      List.reverse_cons, List.append_assoc]
    rfl
  rw [inwards] at nodup
  have others : ∀ i ∈ inner.reverse, (i != back) = true := by
    intro i member
    refine bne_iff_ne.mpr ?_
    exact (List.nodup_append.mp nodup).2.2 i member back List.mem_cons_self
  rw [cycle, chain, closedPath, inwards, List.takeWhile_append_of_pos others,
    List.takeWhile_cons_of_neg (by simp), List.append_nil, List.reverse_reverse]
  rfl

/-- **The steps behind a call.**  The edges of the innermost frame are followed by the walk
as they are by the recursion, whatever frames are below. -/
theorem leads_visitEach (g : Graph) (policy : CyclePolicy) (stack : List Frame) (node : Nat)
    (rest : List Nat) (order : EmissionOrder) (nodup : (node :: stack.map Frame.node).Nodup) :
    Leads g policy ⟨⟨node, rest⟩ :: stack, order⟩ (fun order => ⟨⟨node, []⟩ :: stack, order⟩)
      (g.visitEach policy node (stack.map Frame.node) rest order) := by
  generalize outside : stack.map Frame.node = outer at nodup ⊢
  fun_induction visitEach g policy node outer rest order generalizing stack with
  | case1 => exact .refl
  | case2 node outer next rest order closes =>
      subst outside
      refine ⟨_, cycleTo ⟨⟨node, next :: rest⟩ :: stack, order⟩ next, .refl, List.cons_ne_nil _ _, ?_,
        chain_cycleTo g nodup closes⟩
      simp only [step]
      rw [if_pos (onPath_iff.mpr closes)]
  | case3 node outer next rest order closes ih =>
      subst outside
      exact (ih stack rfl nodup).head (.single (.drop node next rest stack order rfl closes))
  | case4 policy node outer next rest order offPath written ih =>
      exact (ih stack outside nodup).head (.single (.pass node next rest stack order written))
  | case5 policy node outer next rest order offPath unwritten inner onward =>
      subst outside
      have new : ¬ Touched ⟨⟨node, next :: rest⟩ :: stack, order⟩ next := by
        rintro (onPath | written)
        · exact offPath onPath
        · exact unwritten written
      -- the call for `next` is a frame on top, which is written when its edges are followed
      have called := inner (⟨node, rest⟩ :: stack) rfl (List.nodup_cons.mpr ⟨offPath, nodup⟩)
      refine (called.bind fun order' => ?_).head (.single (.enter node next rest stack order new))
      exact (onward order' stack rfl nodup).head
        (.single (.write next (⟨node, rest⟩ :: stack) order'))

/-- **The steps behind a visit**: the frame of the module goes, and the module is written. -/
theorem leads_visit (g : Graph) (policy : CyclePolicy) (order : EmissionOrder) (id : Nat) :
    Leads g policy ⟨[⟨id, g.neighbors id⟩], order⟩ (fun order => ⟨[], order⟩)
      (g.visit policy [] order id) := by
  have followed := leads_visitEach g policy [] id (g.neighbors id) order (List.nodup_singleton id)
  exact followed.bind fun order' => .single (.write id [] order')

/-! ### Bounded walks -/

/-- What a step can be, it is: in a sound walk no module is both written and on the stack. -/
theorem step_of_stepped (sound : w.Sound g) (stepped : Stepped g policy w w') :
    w.step g policy = .ok w' := by
  cases stepped with
  | write => rfl
  | drop node next rest stack done cut closes =>
      subst cut
      simp only [step]
      rw [if_pos (onPath_iff.mpr closes)]
  | pass node next rest stack done isWritten =>
      have offPath : ¬ onPath ⟨⟨node, next :: rest⟩ :: stack, done⟩ next = true := fun onPath =>
        (List.nodup_append.mp sound.nodup).2.2 next (onPath_iff.mp onPath) next isWritten rfl
      simp only [step]
      rw [if_neg offPath, if_pos (written_iff.mpr isWritten)]
  | enter node next rest stack done new =>
      simp only [step]
      rw [if_neg fun onPath => new (Or.inl (onPath_iff.mp onPath)),
        if_neg fun isWritten => new (Or.inr (written_iff.mp isWritten))]

theorem Stepped.stack_ne_nil (stepped : Stepped g policy w w') : w.stack ≠ [] := by
  cases stepped <;> exact List.cons_ne_nil _ _

/-- **A bounded walk takes the steps there are**, and the bound on what is left suffices. -/
theorem run_of_steps (valid : g.EdgesValid) (steps : ReflTransGen (Stepped g policy) w w')
    (reached : Reached g policy w) {fuel : Nat} (enough : w.due g ≤ fuel) :
    Reached g policy w' ∧ ∃ left, w'.due g ≤ left ∧ run g policy fuel w = run g policy left w' := by
  induction steps using ReflTransGen.head_induction_on generalizing fuel with
  | refl => exact ⟨reached, fuel, enough, rfl⟩
  | @head w w₁ stepped _ ih =>
      have used := due_step valid reached.sound stepped
      obtain ⟨fuel, rfl⟩ : ∃ fewer, fuel = fewer + 1 := ⟨fuel - 1, by omega⟩
      have enough' : w₁.due g ≤ fuel := by omega
      obtain ⟨onward, left, bound, same⟩ := ih (reached.step stepped) enough'
      refine ⟨onward, left, bound, ?_⟩
      rw [run, if_neg stepped.stack_ne_nil, step_of_stepped reached.sound stepped]
      exact same

/-- A walk that fails at its next step has a step to make. -/
theorem run_of_fails {cycle : List Nat} {fuel : Nat} (more : w.stack ≠ [])
    (fails : w.step g policy = .error cycle) (enough : w.due g ≤ fuel) :
    run g policy fuel w = .error cycle := by
  obtain ⟨frame, below, top⟩ := List.exists_cons_of_ne_nil more
  rw [due, top, List.foldr_cons] at enough
  obtain ⟨fuel, rfl⟩ : ∃ fewer, fuel = fewer + 1 := ⟨fuel - 1, by omega⟩
  rw [run, if_neg more, fails]

/-- A walk ends as visits do: with an empty stack and their order, or with a cycle that has
the names they report. -/
def Agrees (g : Graph) (policy : CyclePolicy) (walked : Except (List Nat) Walk) :
    Except (List String) EmissionOrder → Prop
  | .ok order => walked = .ok ⟨[], order⟩ ∧ Reached g policy ⟨[], order⟩
  | .error names => ∃ cycle, walked = .error cycle ∧ g.chain cycle = names

/-- **A walk from one module** ends as the visit does. -/
theorem root_agrees (valid : g.EdgesValid) {order : EmissionOrder} {id : Nat}
    (inside : id < g.nodes.length) (fresh : id ∉ order.modules)
    (reached : Reached g policy ⟨[], order⟩) :
    Agrees g policy (root g policy g.work ⟨[], order⟩ id) (g.visit policy [] order id) := by
  have begun : Reached g policy ⟨[⟨id, g.neighbors id⟩], order⟩ := reached.root rfl inside fresh
  have walks : root g policy g.work ⟨[], order⟩ id =
      run g policy g.work ⟨[⟨id, g.neighbors id⟩], order⟩ := by
    rw [root, if_neg fun isWritten => fresh (written_iff.mp isWritten)]
  have leads := leads_visit g policy order id
  rw [walks]
  cases visited : g.visit policy [] order id with
  | ok order' =>
      rw [visited] at leads
      obtain ⟨reached', left, -, same⟩ := run_of_steps valid leads begun (due_start_le inside)
      refine ⟨?_, reached'⟩
      rw [same]
      cases left <;> rfl
  | error names =>
      rw [visited] at leads
      obtain ⟨last, cycle, steps, more, fails, chain⟩ := leads
      obtain ⟨-, left, enough, same⟩ := run_of_steps valid steps begun (due_start_le inside)
      exact ⟨cycle, same.trans (run_of_fails more fails enough), chain⟩

/-- **Walks from several modules** end as the visits do, one after the other. -/
theorem roots_eq_visits (valid : g.EdgesValid) {ids : List Nat}
    (inside : ∀ id ∈ ids, id < g.nodes.length) {order : EmissionOrder}
    (reached : Reached g policy ⟨[], order⟩) :
    ((ids.foldlM (root g policy g.work) ⟨[], order⟩).map Walk.done).mapError g.chain =
      ids.foldlM
        (fun order id => if id ∈ order.modules then .ok order else g.visit policy [] order id)
        order := by
  induction ids generalizing order with
  | nil => rfl
  | cons id rest ih =>
      obtain ⟨here, later⟩ := List.forall_mem_cons.mp inside
      rw [List.foldlM_cons, List.foldlM_cons]
      by_cases isWritten : id ∈ order.modules
      · rw [root, if_pos (written_iff.mpr isWritten), if_pos isWritten]
        exact ih later reached
      · rw [if_neg isWritten]
        have first := root_agrees valid here isWritten reached
        cases visited : g.visit policy [] order id with
        | ok order' =>
            rw [visited] at first
            obtain ⟨walked, reached'⟩ := first
            rw [walked]
            exact ih later reached'
        | error names =>
            rw [visited] at first
            obtain ⟨cycle, walked, rfl⟩ := first
            rw [walked]
            rfl

end Walk

end Graph

/-- **The order of emission is the recursive one.**  In every graph whose edges lead to
modules, as they do in every linked graph, and under both policies, the walk with its own
stack gives what visiting the modules recursively gives: the same modules in the same order
and the same dropped edges in the same order, or the same names along a cycle. -/
theorem order_eq_postorder {g : Graph} (valid : g.EdgesValid) (policy : CyclePolicy) :
    (g.order policy).mapError g.chain = g.postorder policy :=
  Graph.Walk.roots_eq_visits valid (fun _ member => List.mem_range.mp member) .start

/-- Under one policy both edges of `b` lead back and are dropped; under the other the first of
them ends the visit. -/
theorem order_eq_postorder_ringGraph :
    ringGraph.EdgesValid ∧
      ringGraph.postorder .cut = .ok ⟨[2, 1, 0], [(2, 1), (2, 0)]⟩ ∧
      ringGraph.postorder .reject = .error ["a", "b", "a"] := by
  have valid := simpleEdges_ringGraph.valid
  refine ⟨valid, ?_, ?_⟩
  · rw [← order_eq_postorder valid]
    decide +kernel
  · rw [← order_eq_postorder valid]
    decide +kernel

end Amalgam
