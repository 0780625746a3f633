import Amalgam.Proofs.Growth

/-!
# A scan only adds to the build

`Amalgam.Proofs.Growth` says that modules stay and gain declarations.  For the modules
that were there **before** a scan more is true: nothing of them changes at all.  A task
writes to one module, the one whose text it stands in (`Task.writes`), and the tasks of a
scan stand in texts that the scan itself has opened.

The argument has two halves.  `Build.Appends` is about everything beside the modules: the
index of names, the registry, and the lists of what was visited, claimed, found outside or
reported are only appended to, whatever a task does.  `Performed.frame` is about the
modules: a task leaves all nodes alone except the one it writes to, and the tasks it
brings write to the same node or to one that is new (`Performed.writes_new`).  So a node
that no task of the agenda writes to is the same at every later moment (`Leads.frame`).

## Main statements

* `Performed.appends`, `Performed.frame` — one task
* `Leads.frame` — a node that nobody writes to
* `scan_extends_build` — a scan of any file from any build
-/

namespace Amalgam

/-! ### Lists that are appended to -/

/-- **The later build has the lists of the earlier one as beginnings of its own**, and the
same table, policies and order. -/
structure Build.Appends (b b' : Build) : Prop where
  index : b.graph.index <+: b'.graph.index
  paths : b.graph.paths <+: b'.graph.paths
  registry : b.registry.entries <+: b'.registry.entries
  scopes : b.scopes <+: b'.scopes
  visited : b.visited <+: b'.visited
  externals : b.externals <+: b'.externals
  futures : b.futures <+: b'.futures
  externalNames : b.externalNames <+: b'.externalNames
  diagnostics : b.diagnostics <+: b'.diagnostics
  table : b'.table = b.table
  wildcard : b'.wildcard = b.wildcard
  cycles : b'.cycles = b.cycles
  order : b'.order = b.order

theorem prefix_insertLast {α : Type} [BEq α] (xs : List α) (x : α) : xs <+: insertLast xs x := by
  unfold insertLast
  split
  · exact List.prefix_rfl
  · exact List.prefix_append xs [x]

theorem Registry.prefix_register (r : Registry) (qualified : String) :
    r.entries <+: (r.register qualified).entries := by
  unfold register
  split
  · exact List.prefix_rfl
  · exact List.prefix_append _ _

theorem Graph.prefix_addName (g : Graph) (name : String) (id : Nat) :
    g.index <+: (g.addName name id).index := by
  unfold addName
  split
  · exact List.prefix_rfl
  · exact List.prefix_append _ _

namespace Build.Appends

theorem refl (b : Build) : b.Appends b := by
  constructor <;> first | exact List.prefix_rfl | rfl

theorem trans {b b' b'' : Build} (first : b.Appends b') (second : b'.Appends b'') :
    b.Appends b'' where
  index := first.index.trans second.index
  paths := first.paths.trans second.paths
  registry := first.registry.trans second.registry
  scopes := first.scopes.trans second.scopes
  visited := first.visited.trans second.visited
  externals := first.externals.trans second.externals
  futures := first.futures.trans second.futures
  externalNames := first.externalNames.trans second.externalNames
  diagnostics := first.diagnostics.trans second.diagnostics
  table := second.table.trans first.table
  wildcard := second.wildcard.trans first.wildcard
  cycles := second.cycles.trans first.cycles
  order := second.order.trans first.order

theorem addFuture (b : Build) (clause : String) : b.Appends (b.addFuture clause) :=
  { refl b with futures := prefix_insertLast b.futures clause }

theorem addExternal (b : Build) (name : String) : b.Appends (b.addExternal name) :=
  { refl b with externals := prefix_insertLast b.externals name }

theorem markVisited (b : Build) (name : String) : b.Appends (b.markVisited name) :=
  { refl b with visited := prefix_insertLast b.visited name }

theorem reportAt (b : Build) (finding : Finding) (path : Path) (line : Nat) :
    b.Appends (b.reportAt finding path line) :=
  { refl b with diagnostics := List.prefix_append _ _ }

theorem addName (b : Build) (name : String) (id : Nat) :
    b.Appends { b with graph := b.graph.addName name id } :=
  { refl b with
    index := b.graph.prefix_addName name id
    paths := Eq.symm (Graph.paths_addName b.graph name id) ▸ List.prefix_rfl }

theorem modifyModule (b : Build) (id : Nat) (f : Module → Module) :
    b.Appends (b.modifyModule id f) :=
  { refl b with }

theorem declare (b : Build) (id : Nat) (name : String) : b.Appends (b.declare id name) := by
  unfold Build.declare
  split
  next m _ =>
    exact { modifyModule b id (·.declare name) with
      registry := b.registry.prefix_register (qualify m.scope name) }
  next => exact refl b

theorem reportJoined (path : Path) (number : Nat) (forms : List ImportForm) (b : Build) :
    b.Appends (reportJoined path number forms b) := by
  unfold Amalgam.reportJoined
  generalize forms.filter _ = joined
  induction joined generalizing b with
  | nil => exact refl b
  | cons form rest ih => exact (reportAt b _ path number).trans (ih _)

theorem scanCode (id : Nat) (path : Path) (number : Nat) (lexed : LexedLine) (b : Build) :
    b.Appends (scanCode id path number lexed b) := by
  refine trans ?_ (reportJoined path number (joinedForms lexed) _)
  generalize declaredNames lexed = names
  induction names generalizing b with
  | nil => exact refl b
  | cons name rest ih => exact (declare b id name).trans (ih _)

theorem bindModule (id found : Nat) (path : Path) (number : Nat) (form : ImportForm) (b : Build) :
    b.Appends (bindModule id found path number form b) := by
  have bound : b.Appends ((b.modifyModule id (·.addDependency form.source)).bindAll id
      (importedNames b.wildcard
        ((b.modifyModule id (·.addDependency form.source)).symbolsOf found) form)) :=
    (modifyModule b id _).trans (modifyModule _ id _)
  unfold Amalgam.bindModule
  dsimp only
  split
  · split
    · exact bound
    · exact bound.trans (reportAt _ _ path number)
  · exact bound

theorem bindExternal (id : Nat) (path : Path) (number : Nat) (form : ImportForm)
    (topLevel : Bool) (b : Build) :
    b.Appends (bindExternal id path number form topLevel b) := by
  unfold Amalgam.bindExternal
  split
  · split
    · unfold Build.bindExternalName
      split
      · split
        · exact reportAt b _ path number
        · exact refl b
      · exact { refl b with externalNames := List.prefix_append _ _ }
    · exact refl b
  · exact refl b

theorem openModule {b : Build} {full : Path} (new : b.graph.byPath? full = none)
    (source : List Char) : b.Appends (openModule full source b).1 := by
  have claimed : b.Appends ((b.claimScope (scopeOf (moduleName full))).markVisited
      (moduleName full)) :=
    { refl b with
      scopes := List.prefix_append _ _
      visited := prefix_insertLast b.visited (moduleName full) }
  refine claimed.trans { refl _ with index := ?_, paths := ⟨_, (paths_openModule new source).symm⟩ }
  change b.graph.index <+: (b.graph.add (newModule b full source)).1.index
  rw [Graph.add, show b.graph.byPath? (newModule b full source).path = none from new]
  exact Graph.prefix_addName
    { b.graph with
      nodes := b.graph.nodes ++ [⟨newModule b full source, []⟩]
      paths := b.graph.paths ++ [(full, b.graph.nodes.length)] } _ _

end Build.Appends

variable {tree : FileTree} {b b' : Build} {task : Task} {new : List Task} {i id : Nat}
  {s : Moment}

/-- **Whatever a task does, it appends.** -/
theorem Performed.appends (performed : Performed tree b task b' new) : b.Appends b' := by
  cases performed with
  | code id path number lexed => exact .scanCode id path number lexed b
  | future => exact .addFuture b _
  | known => exact .refl b
  | listed => exact .markVisited b _
  | outside => exact .addExternal b _
  | revisit => exact .refl b
  | opened absent => exact .openModule absent _
  | arrive c id => exact .addName b _ id
  | bound c found => exact .bindModule _ found _ _ _ b
  | boundOutside c => exact .bindExternal _ _ _ _ _ b

theorem Leads.appends {s' : Moment} (leads : Leads tree s s') :
    s.build.Appends s'.build := by
  induction leads with
  | refl => exact .refl s.build
  | tail _ step ih =>
      cases step with
      | perform performed => exact ih.trans (performed_of_perform performed).appends

/-! ### The node that a task writes to -/

/-- The module whose text a task stands in. -/
def Task.writes : Task → Nat
  | .code id _ _ _ => id
  | .meet c | .visit c _ | .arrive c _ | .settle c _ => c.importer

/-- The tasks of a file write to its module. -/
theorem writes_fileTasks {path : Path} {source : List Char}
    (member : task ∈ fileTasks id path source) : task.writes = id := by
  rcases mem_fileTasks member with ⟨_, _, _, -, rfl⟩ | ⟨_, _, _, _, _, -, -, rfl⟩ <;> rfl

theorem Graph.nodes_addName (g : Graph) (name : String) (id : Nat) :
    (g.addName name id).nodes = g.nodes := by
  unfold addName
  split <;> rfl

theorem nodes_openModule {full : Path} (new : b.graph.byPath? full = none) (source : List Char) :
    (openModule full source b).1.graph.nodes =
      b.graph.nodes ++ [⟨newModule b full source, []⟩] := by
  change (b.graph.add (newModule b full source)).1.nodes = _
  rw [Graph.add, show b.graph.byPath? (newModule b full source).path = none from new]
  exact Graph.nodes_addName _ _ _

/-- **New tasks write where the task did, or to the module that it opened.** -/
theorem Performed.writes_new (performed : Performed tree b task b' new) :
    ∀ next ∈ new, next.writes = task.writes ∨
      next.writes = b.graph.nodes.length ∧ b.graph.nodes.length < b'.graph.nodes.length := by
  intro next member
  cases performed with
  | code => cases member
  | future => cases member
  | known => exact Or.inl (by rw [List.mem_singleton.mp member]; rfl)
  | listed => exact Or.inl (by rw [List.mem_singleton.mp member]; rfl)
  | outside => exact Or.inl (by rw [List.mem_singleton.mp member]; rfl)
  | revisit => exact Or.inl (by rw [List.mem_singleton.mp member]; rfl)
  | opened absent =>
      rcases List.mem_append.mp member with ofFile | last
      · refine Or.inr ⟨writes_fileTasks ofFile, ?_⟩
        rw [nodes_openModule absent, List.length_append]
        exact Nat.lt_succ_self _
      · exact Or.inl (by rw [List.mem_singleton.mp last]; rfl)
  | arrive => exact Or.inl (by rw [List.mem_singleton.mp member]; rfl)
  | bound => cases member
  | boundOutside => cases member

theorem Graph.getElem?_modify_of_ne {g : Graph} (other : i ≠ id) (f : Module → Module) :
    (g.modify id f).nodes[i]? = g.nodes[i]? := by
  have elsewhere : id ≠ i := Ne.symm other
  simp [modify, elsewhere]

/-- Declaring names and reporting leaves other nodes alone. -/
theorem getElem?_scanCode_of_ne (other : i ≠ id) (path : Path) (number : Nat) (lexed : LexedLine)
    (b : Build) :
    (scanCode id path number lexed b).graph.nodes[i]? = b.graph.nodes[i]? := by
  refine scanCode_induction (motive := fun b' => b'.graph.nodes[i]? = b.graph.nodes[i]?) ?_ ?_ rfl
  · intro b' name _ same
    unfold Build.declare
    split
    · exact (Graph.getElem?_modify_of_ne other _).trans same
    · exact same
  · intro b' b'' noted same
    rw [noted.graph]
    exact same

/-- **A task leaves all nodes alone except the one it writes to**, their edges included. -/
theorem Performed.frame (performed : Performed tree b task b' new) (other : i ≠ task.writes)
    (there : i < b.graph.nodes.length) : b'.graph.nodes[i]? = b.graph.nodes[i]? := by
  cases performed with
  | code id path number lexed => exact getElem?_scanCode_of_ne other path number lexed b
  | future => rfl
  | known => rfl
  | listed => rfl
  | outside => rfl
  | revisit => rfl
  | opened absent =>
      rw [nodes_openModule absent, List.getElem?_append_left there]
  | arrive c id => exact congrArg (·[i]?) (Graph.nodes_addName b.graph c.source id)
  | bound c found =>
      rw [graph_bindModule]
      exact Graph.getElem?_modify_of_ne other _
  | boundOutside c =>
      have noted := OnlyNotes.bindExternal c.importer c.path c.number c.form c.topLevel b
      rw [noted.graph]

/-- No task takes a node away. -/
theorem Performed.length_le (performed : Performed tree b task b' new) :
    b.graph.nodes.length ≤ b'.graph.nodes.length := by
  by_contra fewer
  have last : b'.graph.nodes.length < b.graph.nodes.length := Nat.lt_of_not_le fewer
  have here : (b.graph.module? b'.graph.nodes.length).isSome := Graph.module?_isSome_iff.mpr last
  obtain ⟨m, found⟩ := Option.isSome_iff_exists.mp here
  obtain ⟨m', found', -⟩ := performed.grows.module found
  exact absurd (Graph.module?_isSome_iff.mp (by rw [found']; rfl)) (Nat.lt_irrefl _)

/-- **A node that no task of the agenda writes to stays as it is**, and no later task
writes to it either. -/
theorem Leads.frame {s' : Moment} (leads : Leads tree s s')
    (there : i < s.build.graph.nodes.length) (spared : ∀ task ∈ s.agenda, i ≠ task.writes) :
    s'.build.graph.nodes[i]? = s.build.graph.nodes[i]? ∧
      i < s'.build.graph.nodes.length ∧ ∀ task ∈ s'.agenda, i ≠ task.writes := by
  induction leads with
  | refl => exact ⟨rfl, there, spared⟩
  | tail _ step ih =>
      obtain ⟨same, there', spared'⟩ := ih
      cases step with
      | perform done =>
          have performed := performed_of_perform done
          refine ⟨(performed.frame (spared' _ List.mem_cons_self) there').trans same,
            there'.trans_le performed.length_le, fun task member => ?_⟩
          rcases List.mem_append.mp member with new | waiting
          · rcases performed.writes_new task new with same' | ⟨last, -⟩
            · rw [same']
              exact spared' _ List.mem_cons_self
            · rw [last]
              exact Nat.ne_of_lt there'
          · exact spared' task (List.mem_cons_of_mem _ waiting)

/-! ### Scans -/

/-- **The later build adds to the earlier one.**  Modules, with their symbols, dependencies
and edges, are as they were and where they were; what was recorded in order stays in front;
what a name or a path leads to, it goes on leading to; and what is fixed stays fixed. -/
structure Build.Extends (b b' : Build) : Prop where
  nodes : b.graph.nodes <+: b'.graph.nodes
  externals : b.externals <+: b'.externals
  futures : b.futures <+: b'.futures
  symbols : b.registry.entries <+: b'.registry.entries
  diagnostics : b.diagnostics <+: b'.diagnostics
  byName : ∀ name id, b.graph.byName? name = some id → b'.graph.byName? name = some id
  byPath : ∀ path id, b.graph.byPath? path = some id → b'.graph.byPath? path = some id
  visited : ∀ name ∈ b.visited, name ∈ b'.visited
  scopes : ∀ scope ∈ b.scopes, scope ∈ b'.scopes
  externalNames : ∀ name first, b.externalNames.find? (·.name == name) = some first →
    b'.externalNames.find? (·.name == name) = some first
  table : b'.table = b.table
  wildcard : b'.wildcard = b.wildcard
  cycles : b'.cycles = b.cycles
  order : b'.order = b.order

/-- Lists that are appended to keep what was found in them. -/
theorem Build.Extends.of_appends (appends : b.Appends b')
    (nodes : b.graph.nodes <+: b'.graph.nodes) : b.Extends b' where
  nodes := nodes
  externals := appends.externals
  futures := appends.futures
  symbols := appends.registry
  diagnostics := appends.diagnostics
  byName name id leads := by
    obtain ⟨later, index⟩ := appends.index
    rw [Graph.byName?, ← index, List.lookup_append,
      show b.graph.index.lookup name = some id from leads]
    rfl
  byPath _ _ leads := Graph.byPath?_of_prefix appends.paths leads
  visited _ member := appends.visited.subset member
  scopes _ member := appends.scopes.subset member
  externalNames name first found := by
    obtain ⟨later, all⟩ := appends.externalNames
    rw [← all, List.find?_append, found]
    rfl
  table := appends.table
  wildcard := appends.wildcard
  cycles := appends.cycles
  order := appends.order

/-- Every moment of a scan adds to the build that the scan began with. -/
theorem Encounter.extends {given : Path} {start : Build} (now : Encounter tree given start s) :
    start.Extends s.build := by
  obtain ⟨b, id, tasks, entered, leads⟩ := now
  rcases enter_cases entered with ⟨-, rfl, rfl⟩ | ⟨absent, source, -, rfl, rfl, rfl⟩
  · refine .of_appends leads.appends (List.prefix_iff_getElem?.mpr fun i there => ?_)
    rw [(leads.frame there (by simp)).1]
    exact List.getElem?_eq_getElem there
  · have opened := Build.Appends.openModule absent source
    refine .of_appends (opened.trans leads.appends) ?_
    refine List.prefix_iff_getElem?.mpr fun i there => ?_
    have nodes := nodes_openModule absent source
    have there' : i < (openModule (tree.canonical given) source start).1.graph.nodes.length := by
      rw [nodes, List.length_append]
      exact Nat.lt_add_right _ there
    -- the tasks are those of the new file, whose number is beyond all others
    have spared : ∀ task ∈ fileTasks start.graph.nodes.length (tree.canonical given) source,
        i ≠ task.writes := by
      intro task member
      rw [writes_fileTasks member]
      exact Nat.ne_of_lt there
    rw [(leads.frame there' spared).1, nodes, List.getElem?_append_left there]
    exact List.getElem?_eq_getElem there

/-- **A scan only adds to the build.**  Whatever build a scan starts with and whatever path
it is given, also if it fails: the modules that were there are unchanged in every part and
the lists are only appended to. -/
theorem scan_extends_build (tree : FileTree) (given : Path) (start : Build) :
    start.Extends (start.scanPath tree given).2 := by
  rcases scanPath_encounter tree given start with untouched | ⟨left, now⟩
  · rw [untouched]
    exact .of_appends (.refl start) List.prefix_rfl
  · exact now.extends

end Amalgam
