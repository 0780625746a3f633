import Amalgam.Proofs.Agenda
import Amalgam.Proofs.StatementWords

/-!
# What a task does to a build

Each operation on a build is described by what it does to a few **views**: the
module that a number has (`Graph.module?`), the number that a name has
(`Graph.byName?`), the registry, the scopes.  Everything else an operation touches
(diagnostics, directives, external names) is invisible to these views, and the
lemmas of the second section say so.

`Performed` lists the ten things that doing a task can be, each with the condition
under which it happens.  Invariants of scans are proved by cases on it, so no later
proof opens `Task.perform`.  Most of them also need to know something of the tasks that
wait, and `Encounter.invariant` is the induction for both at once.

## Main statements

* `Graph.module?_modify`, `Graph.module?_add`, `Graph.byName?_addName`
* `module?_openModule`, `graph_bindModule`, `scanCode_induction`
* `Performed`, `performed_of_perform`
* `Encounter.invariant` — an invariant of builds with a condition on tasks
* `Performed.finds_new` — the two ways in which a module is found
* `Encounter.build_induction` — what one task keeps, a scan keeps
-/

namespace Amalgam

/-! ### Views of the graph -/

namespace Graph

@[simp] theorem module?_empty (id : Nat) : ({} : Graph).module? id = none := rfl

@[simp] theorem module?_addName (g : Graph) (name : String) (id j : Nat) :
    (g.addName name id).module? j = g.module? j := by
  unfold addName
  split <;> rfl

@[simp] theorem paths_addName (g : Graph) (name : String) (id : Nat) :
    (g.addName name id).paths = g.paths := by
  unfold addName
  split <;> rfl

/-- A change to one module is seen at its number only. -/
theorem module?_modify (g : Graph) (id j : Nat) (f : Module → Module) :
    (g.modify id f).module? j = if j = id then (g.module? j).map f else g.module? j := by
  simp only [module?, modify, List.getElem?_modify]
  by_cases here : j = id
  · subst here
    simp [Option.map_map, Function.comp_def]
  · have elsewhere : id ≠ j := Ne.symm here
    simp [here, elsewhere]

@[simp] theorem byName?_modify (g : Graph) (id : Nat) (f : Module → Module) (name : String) :
    (g.modify id f).byName? name = g.byName? name := rfl

/-- Two changes to one module are one. -/
theorem modify_modify (g : Graph) (id : Nat) (f h : Module → Module) :
    (g.modify id f).modify id h = g.modify id fun m => h (f m) := by
  simp only [modify, List.modify_modify_eq]
  rfl

/-- The numbers in use. -/
theorem module?_isSome_iff {g : Graph} {id : Nat} :
    (g.module? id).isSome ↔ id < g.nodes.length := by
  simp [module?]

/-- A new file gets the next number, and nothing else changes. -/
theorem module?_add {g : Graph} {m : Module} (new : g.byPath? m.path = none) (j : Nat) :
    (g.add m).1.module? j = if j = g.nodes.length then some m else g.module? j := by
  simp only [add, new, module?_addName]
  simp only [module?, List.getElem?_append]
  by_cases before : j < g.nodes.length
  · rw [if_pos before, if_neg (Nat.ne_of_lt before)]
  · rw [if_neg before]
    by_cases here : j = g.nodes.length
    · simp [here]
    · have beyond : j - g.nodes.length ≠ 0 := by omega
      have past : g.nodes.length ≤ j := by omega
      simp [here, beyond, List.getElem?_eq_none past]

/-- The path of a new file is entered with its number. -/
theorem paths_add {g : Graph} {m : Module} (new : g.byPath? m.path = none) :
    (g.add m).1.paths = g.paths ++ [(m.path, g.nodes.length)] := by
  simp only [add, new, paths_addName]

theorem add_number {g : Graph} {m : Module} (new : g.byPath? m.path = none) :
    (g.add m).2 = g.nodes.length := by
  simp [add, new]

/-- A name that is given to a module leads to it, unless it leads somewhere. -/
theorem byName?_addName (g : Graph) (name other : String) (id : Nat) :
    (g.addName name id).byName? other =
      if other = name then (g.byName? name).or (some id) else g.byName? other := by
  unfold addName
  cases known : g.byName? name with
  | some old =>
      by_cases same : other = name
      · rw [same]
        simp [known]
      · simp [same]
  | none =>
      rw [if_neg (by simp)]
      simp only [byName?, List.lookup_append, NameMap.lookup_cons_eq, List.lookup_nil] at known ⊢
      by_cases same : other = name
      · rw [same]
        simp [known]
      · simp [same]

theorem byName?_add {g : Graph} {m : Module} (new : g.byPath? m.path = none) (name : String) :
    (g.add m).1.byName? name =
      if name = m.name then (g.byName? m.name).or (some g.nodes.length) else g.byName? name := by
  simp only [add, new, byName?_addName]
  rfl

end Graph

/-! ### What is invisible -/

/-- Two builds with the same modules, names, identifiers and scopes. -/
structure SameNames (b b' : Build) : Prop where
  graph : b'.graph = b.graph
  registry : b'.registry = b.registry
  scopes : b'.scopes = b.scopes

theorem SameNames.addExternal (b : Build) (name : String) : SameNames b (b.addExternal name) :=
  ⟨rfl, rfl, rfl⟩

theorem SameNames.markVisited (b : Build) (name : String) : SameNames b (b.markVisited name) :=
  ⟨rfl, rfl, rfl⟩

/-- Two builds with the same table and policies in which the same names were looked
for. -/
structure SameLookup (b b' : Build) : Prop where
  table : b'.table = b.table
  wildcard : b'.wildcard = b.wildcard
  cycles : b'.cycles = b.cycles
  visited : b'.visited = b.visited
  externals : b'.externals = b.externals

theorem SameLookup.trans {b b' b'' : Build} (first : SameLookup b b') (second : SameLookup b' b'') :
    SameLookup b b'' :=
  ⟨second.table.trans first.table, second.wildcard.trans first.wildcard,
    second.cycles.trans first.cycles, second.visited.trans first.visited,
    second.externals.trans first.externals⟩

/-- **Two builds that differ in notes**: in directives, diagnostics, and the names that
are bound to things outside the program. -/
structure OnlyNotes (b b' : Build) : Prop extends SameNames b b', SameLookup b b'

namespace OnlyNotes

theorem refl (b : Build) : OnlyNotes b b :=
  ⟨⟨rfl, rfl, rfl⟩, ⟨rfl, rfl, rfl, rfl, rfl⟩⟩

theorem trans {b b' b'' : Build} (first : OnlyNotes b b') (second : OnlyNotes b' b'') :
    OnlyNotes b b'' where
  graph := second.graph.trans first.graph
  registry := second.registry.trans first.registry
  scopes := second.scopes.trans first.scopes
  toSameLookup := first.toSameLookup.trans second.toSameLookup

theorem addFuture (b : Build) (clause : String) : OnlyNotes b (b.addFuture clause) :=
  ⟨⟨rfl, rfl, rfl⟩, ⟨rfl, rfl, rfl, rfl, rfl⟩⟩

theorem reportAt (b : Build) (finding : Finding) (path : Path) (line : Nat) :
    OnlyNotes b (b.reportAt finding path line) :=
  ⟨⟨rfl, rfl, rfl⟩, ⟨rfl, rfl, rfl, rfl, rfl⟩⟩

theorem bindExternal (id : Nat) (path : Path) (number : Nat) (form : ImportForm)
    (topLevel : Bool) (b : Build) :
    OnlyNotes b (bindExternal id path number form topLevel b) := by
  unfold Amalgam.bindExternal
  split
  · split
    · unfold Build.bindExternalName
      split
      · split
        · exact reportAt b _ path number
        · exact refl b
      · exact ⟨⟨rfl, rfl, rfl⟩, ⟨rfl, rfl, rfl, rfl, rfl⟩⟩
    · exact refl b
  · exact refl b

theorem reportJoined (path : Path) (number : Nat) (forms : List ImportForm) (b : Build) :
    OnlyNotes b (reportJoined path number forms b) := by
  unfold Amalgam.reportJoined
  generalize forms.filter _ = joined
  induction joined generalizing b with
  | nil => exact refl b
  | cons form rest ih => exact (reportAt b _ path number).trans (ih _)

end OnlyNotes

/-! ### What is visible -/

/-- **Scanning code declares names and reports**: what both keep, it keeps. -/
theorem scanCode_induction {motive : Build → Prop} {id : Nat} {path : Path} {number : Nat}
    {lexed : LexedLine}
    (declared : ∀ b name, name ∈ declaredNames lexed → motive b → motive (b.declare id name))
    (noted : ∀ b b', OnlyNotes b b' → motive b → motive b') {b : Build} (holds : motive b) :
    motive (scanCode id path number lexed b) := by
  refine noted _ _ (OnlyNotes.reportJoined path number (joinedForms lexed) _) ?_
  revert declared
  generalize declaredNames lexed = names
  intro declared
  induction names generalizing b with
  | nil => exact holds
  | cons name rest ih =>
      refine ih (declared b name List.mem_cons_self holds) ?_
      exact fun b' other member => declared b' other (List.mem_cons_of_mem _ member)

theorem declare_of_module {b : Build} {id : Nat} {m : Module} (found : b.graph.module? id = some m)
    (name : String) :
    b.declare id name =
      { b.modifyModule id (·.declare name) with
        registry := b.registry.register (qualify m.scope name) } := by
  rw [Build.declare, found]

theorem declare_of_none {b : Build} {id : Nat} (missing : b.graph.module? id = none)
    (name : String) : b.declare id name = b := by
  rw [Build.declare, missing]

theorem sameLookup_declare (b : Build) (id : Nat) (name : String) :
    SameLookup b (b.declare id name) := by
  unfold Build.declare
  split <;> exact ⟨rfl, rfl, rfl, rfl, rfl⟩

@[simp] theorem Module.symbols_addDependency (m : Module) (name : String) :
    (m.addDependency name).symbols = m.symbols := by
  unfold Module.addDependency
  split <;> rfl

/-- Recording a dependency changes no symbols. -/
theorem symbolsOf_addDependency (b : Build) (id j : Nat) (name : String) :
    (b.modifyModule id (·.addDependency name)).symbolsOf j = b.symbolsOf j := by
  simp only [Build.symbolsOf, Build.modifyModule, Graph.module?_modify]
  split
  · rw [Option.map_map]
    congr 1
    exact Option.map_congr fun m _ => m.symbols_addDependency name
  · rfl

theorem index_scanCode (id : Nat) (path : Path) (number : Nat) (lexed : LexedLine) (b : Build) :
    (scanCode id path number lexed b).graph.index = b.graph.index := by
  refine scanCode_induction (motive := fun b' => b'.graph.index = b.graph.index) ?_ ?_ rfl
  · intro b' name _ same
    unfold Build.declare
    split <;> exact same
  · intro b' b'' noted same
    rw [noted.graph]
    exact same

theorem sameLookup_scanCode (id : Nat) (path : Path) (number : Nat) (lexed : LexedLine)
    (b : Build) : SameLookup b (scanCode id path number lexed b) :=
  scanCode_induction (fun b' name _ same => same.trans (sameLookup_declare b' id name))
    (fun _ _ noted same => same.trans noted.toSameLookup) ⟨rfl, rfl, rfl, rfl, rfl⟩

/-- What binding a clause does to the module it stands in. -/
def Module.takeClause (wildcard : WildcardPolicy) (symbols : SymbolTable) (form : ImportForm)
    (m : Module) : Module :=
  (m.addDependency form.source).bindAll (importedNames wildcard symbols form)

/-- **Binding a clause changes one module**, by the symbols that another has now. -/
theorem graph_bindModule (id found : Nat) (path : Path) (number : Nat) (form : ImportForm)
    (b : Build) :
    (bindModule id found path number form b).graph =
      b.graph.modify id (Module.takeClause b.wildcard (b.symbolsOf found) form) := by
  have bound : ((b.modifyModule id (·.addDependency form.source)).bindAll id
      (importedNames b.wildcard
        ((b.modifyModule id (·.addDependency form.source)).symbolsOf found) form)).graph =
      b.graph.modify id (Module.takeClause b.wildcard (b.symbolsOf found) form) := by
    rw [symbolsOf_addDependency]
    exact Graph.modify_modify b.graph id (·.addDependency form.source)
      (·.bindAll (importedNames b.wildcard (b.symbolsOf found) form))
  unfold bindModule
  dsimp only
  split
  · split <;> exact bound
  · exact bound

theorem registry_bindModule (id found : Nat) (path : Path) (number : Nat) (form : ImportForm)
    (b : Build) : (bindModule id found path number form b).registry = b.registry := by
  unfold bindModule
  dsimp only
  split
  · split <;> rfl
  · rfl

theorem sameLookup_bindModule (id found : Nat) (path : Path) (number : Nat) (form : ImportForm)
    (b : Build) : SameLookup b (bindModule id found path number form b) := by
  unfold bindModule
  dsimp only
  split
  · split <;> exact ⟨rfl, rfl, rfl, rfl, rfl⟩
  · exact ⟨rfl, rfl, rfl, rfl, rfl⟩

theorem scopes_bindModule (id found : Nat) (path : Path) (number : Nat) (form : ImportForm)
    (b : Build) : (bindModule id found path number form b).scopes = b.scopes := by
  unfold bindModule
  dsimp only
  split
  · split <;> rfl
  · rfl

section Opening

variable {b : Build} {full : Path} (new : b.graph.byPath? full = none) (source : List Char)

include new

/-- A file that is opened gets the next number. -/
theorem openModule_number : (openModule full source b).2 = b.graph.nodes.length :=
  Graph.add_number (m := newModule b full source) new

/-- **Opening a file adds its module** and changes no other. -/
theorem module?_openModule (j : Nat) :
    (openModule full source b).1.graph.module? j =
      if j = b.graph.nodes.length then some (newModule b full source) else b.graph.module? j :=
  Graph.module?_add (m := newModule b full source) new j

theorem paths_openModule :
    (openModule full source b).1.graph.paths = b.graph.paths ++ [(full, b.graph.nodes.length)] :=
  Graph.paths_add (m := newModule b full source) new

/-- A module of the build afterwards is the new one or was there. -/
theorem module?_openModule_cases {source : List Char} {i : Nat} {m : Module}
    (here : (openModule full source b).1.graph.module? i = some m) :
    (i = b.graph.nodes.length ∧ m = newModule b full source) ∨ b.graph.module? i = some m := by
  rw [module?_openModule new] at here
  split at here
  next last =>
    cases here
    exact Or.inl ⟨last, rfl⟩
  next => exact Or.inr here

theorem byName?_openModule (name : String) :
    (openModule full source b).1.graph.byName? name =
      if name = moduleName full then (b.graph.byName? name).or (some b.graph.nodes.length)
      else b.graph.byName? name := by
  have added := Graph.byName?_add (m := newModule b full source) new name
  refine added.trans ?_
  by_cases named : name = moduleName full
  · rw [named]
    rfl
  · rw [if_neg named, if_neg (show name ≠ (newModule b full source).name from named)]

end Opening

theorem scopes_openModule (full : Path) (source : List Char) (b : Build) :
    (openModule full source b).1.scopes = b.scopes ++ [b.freeScope (scopeOf (moduleName full))] :=
  rfl

/-! ### The ten things a task can do -/

/-- **The clause asks for a module**: it is no directive, and no wildcard that the
policy refuses. -/
structure Clause.Asks (b : Build) (c : Clause) : Prop where
  ordinary : c.form.isFuture = false
  allowed : (c.form.isWildcard && b.wildcard = .deny) = false

/-- **Doing a task**, case by case, with the condition of each case. -/
inductive Performed (tree : FileTree) (b : Build) : Task → Build → List Task → Prop where
  | code (id : Nat) (path : Path) (number : Nat) (lexed : LexedLine) :
      Performed tree b (.code id path number lexed) (scanCode id path number lexed b) []
  | future {c : Clause} (future : c.form.isFuture = true) :
      Performed tree b (.meet c) (b.addFuture c.form.render) []
  /-- The name is known already. -/
  | known {c : Clause} {id : Nat} (asks : c.Asks b)
      (known : knownModule? b c.source = some id) :
      Performed tree b (.meet c) b [.settle c (some id)]
  /-- The search table has the name. -/
  | listed {c : Clause} {path : Path} (asks : c.Asks b)
      (unknown : knownModule? b c.source = none) (listed : b.table.find? c.source = some path) :
      Performed tree b (.meet c) (b.markVisited c.source) [.visit c path]
  /-- The name is outside the program. -/
  | outside {c : Clause} (asks : c.Asks b)
      (unknown : knownModule? b c.source = none) (unlisted : b.table.find? c.source = none) :
      Performed tree b (.meet c) (b.addExternal c.source) [.settle c none]
  /-- The file is in the graph already. -/
  | revisit {c : Clause} {path : Path} {id : Nat}
      (there : b.graph.byPath? (tree.canonical path) = some id) :
      Performed tree b (.visit c path) b [.arrive c id]
  | opened {c : Clause} {path : Path} {source : List Char}
      (new : b.graph.byPath? (tree.canonical path) = none)
      (read : tree.readText (tree.canonical path) = .ok source) :
      Performed tree b (.visit c path) (openModule (tree.canonical path) source b).1
        (fileTasks b.graph.nodes.length (tree.canonical path) source ++
          [.arrive c b.graph.nodes.length])
  | arrive (c : Clause) (id : Nat) :
      Performed tree b (.arrive c id) { b with graph := b.graph.addName c.source id }
        [.settle c (some id)]
  | bound (c : Clause) (found : Nat) :
      Performed tree b (.settle c (some found))
        (bindModule c.importer found c.path c.number c.form b) []
  | boundOutside (c : Clause) :
      Performed tree b (.settle c none)
        (bindExternal c.importer c.path c.number c.form c.topLevel b) []

variable {tree : FileTree} {b b' : Build} {task : Task} {new : List Task} {id : Nat}

/-- What opening the file at a path can be. -/
theorem enter_cases {given : Path} {tasks : List Task}
    (entered : enter tree given b = .ok (b', id, tasks)) :
    (b.graph.byPath? (tree.canonical given) = some id ∧ b' = b ∧ tasks = []) ∨
      b.graph.byPath? (tree.canonical given) = none ∧
        ∃ source, tree.readText (tree.canonical given) = .ok source ∧
          id = b.graph.nodes.length ∧
          b' = (openModule (tree.canonical given) source b).1 ∧
          tasks = fileTasks id (tree.canonical given) source := by
  unfold enter at entered
  dsimp only at entered
  split at entered
  next there =>
    cases entered
    exact Or.inl ⟨there, rfl, rfl⟩
  next new =>
    split at entered
    · cases entered
    next source read =>
      cases entered
      exact Or.inr ⟨new, source, read, openModule_number new source, rfl, rfl⟩

theorem performed_of_perform (performed : task.perform tree b = .ok (b', new)) :
    Performed tree b task b' new := by
  cases task with
  | code id path number lexed =>
      cases performed
      exact .code id path number lexed
  | meet c =>
      rw [Task.perform] at performed
      split at performed
      next future =>
        cases performed
        exact .future future
      next ordinary =>
        rw [Bool.not_eq_true] at ordinary
        split at performed
        · cases performed
        next allowed =>
          have asks : c.Asks b := ⟨ordinary, Bool.eq_false_iff.mpr allowed⟩
          split at performed
          next id known =>
            cases performed
            exact .known asks known
          next unknown =>
            split at performed
            next path listed =>
              cases performed
              exact .listed asks unknown listed
            next unlisted =>
              cases performed
              exact .outside asks unknown unlisted
  | visit c path =>
      rw [Task.perform] at performed
      split at performed
      next opened id tasks entered =>
        cases performed
        rcases enter_cases entered with ⟨there, rfl, rfl⟩ | ⟨new, source, read, rfl, rfl, rfl⟩
        · exact .revisit there
        · exact .opened new read
      next => cases performed
  | arrive c id =>
      cases performed
      exact .arrive c id
  | settle c found =>
      cases found with
      | some found =>
          cases performed
          exact .bound c found
      | none =>
          cases performed
          exact .boundOutside c

/-- What a clause does that asks for a module whose name is known. -/
theorem perform_meet_known {c : Clause} (asks : c.Asks b)
    (known : knownModule? b c.source = some id) :
    (Task.meet c).perform tree b = .ok (b, [.settle c (some id)]) := by
  rw [Task.perform, if_neg (Bool.eq_false_iff.mp asks.ordinary),
    if_neg (Bool.eq_false_iff.mp asks.allowed), known]

/-! ### Invariants of scans -/

/-- The tasks of a file are its lines of code and its clauses. -/
theorem mem_fileTasks {path : Path} {source : List Char}
    (member : task ∈ fileTasks id path source) :
    (∃ number line lexed, .code number line lexed ∈ statements source ∧
      task = .code id path number lexed) ∨
    ∃ number lines forms topLevel form, .imports number lines forms topLevel ∈ statements source ∧
      form ∈ forms ∧ task = .meet ⟨id, path, number, topLevel, form⟩ := by
  obtain ⟨s, inFile, inStatement⟩ := List.mem_flatMap.mp member
  cases s with
  | code number line lexed =>
      exact Or.inl ⟨number, line, lexed, inFile, List.mem_singleton.mp inStatement⟩
  | imports number lines forms topLevel =>
      obtain ⟨form, inForms, same⟩ := List.mem_map.mp inStatement
      exact Or.inr ⟨number, lines, forms, topLevel, form, inFile, inForms, same.symm⟩

/-- What holds of code and of clauses holds of all tasks of a file. -/
theorem forall_mem_fileTasks {P : Task → Prop} {path : Path} {source : List Char}
    (code : ∀ number lexed, P (.code id path number lexed)) (clause : ∀ c, P (.meet c)) :
    ∀ task ∈ fileTasks id path source, P task := by
  intro task member
  rcases mem_fileTasks member with ⟨number, _, lexed, -, rfl⟩ | ⟨_, _, _, _, _, -, -, rfl⟩
  · exact code number lexed
  · exact clause _

/-- **An invariant of builds with a condition on tasks.**  The condition on a task may
speak of the build; it has to hold of new tasks and to stay true of waiting ones while
others are done. -/
theorem Encounter.invariant {entry : Path} {start : Build} {Q : Build → Prop}
    {P : Build → Task → Prop}
    (opened : ∀ {b id tasks}, enter tree entry start = .ok (b, id, tasks) →
      Q b ∧ ∀ task ∈ tasks, P b task)
    (kept : ∀ {b b' : Build} {task : Task} {rest new : List Task},
      Encounter tree entry start ⟨b, task :: rest⟩ → task.perform tree b = .ok (b', new) →
      Q b → P b task → Q b' ∧ ∀ next ∈ new, P b' next)
    (waits : ∀ {b b' : Build} {task other : Task} {new : List Task},
      Performed tree b task b' new → P b other → P b' other)
    {s : Moment} (now : Encounter tree entry start s) :
    Q s.build ∧ ∀ task ∈ s.agenda, P s.build task := by
  refine Encounter.induction (motive := fun b agenda => Q b ∧ ∀ task ∈ agenda, P b task)
    opened (fun moment done holds => ?_) now
  obtain ⟨build, new⟩ := kept moment done holds.1 (holds.2 _ List.mem_cons_self)
  refine ⟨build, fun task member => ?_⟩
  rcases List.mem_append.mp member with fresh | old
  · exact new task fresh
  · exact waits (performed_of_perform done) (holds.2 task (List.mem_cons_of_mem _ old))

/-! ### Modules that were found -/

/-- The task acts on a module that has the property for the name that was asked for. -/
def Task.Finds (R : String → Nat → Prop) : Task → Prop
  | .settle c (some id) => R c.source id
  | _ => True

theorem Task.Finds.mono {R R' : String → Nat → Prop} (weaker : ∀ name id, R name id → R' name id)
    (finds : task.Finds R) : task.Finds R' := by
  match task, finds with
  | .settle c (some id), found => exact weaker c.source id found
  | .settle _ none, _ => trivial
  | .code .., _ => trivial
  | .meet _, _ => trivial
  | .visit .., _ => trivial
  | .arrive .., _ => trivial

/-- **A module is found in one of two ways**: its name was known, or a visit arrives. -/
theorem Performed.finds_new (performed : Performed tree b task b' new) {R : String → Nat → Prop}
    (known : ∀ {c id}, task = .meet c → b' = b → c.Asks b → knownModule? b c.source = some id →
      R c.source id)
    (arrives : ∀ {c id}, task = .arrive c id →
      b' = { b with graph := b.graph.addName c.source id } → R c.source id) :
    ∀ next ∈ new, next.Finds R := by
  intro next member
  cases performed with
  | known asks found =>
      rw [List.mem_singleton.mp member]
      exact known rfl rfl asks found
  | arrive c id =>
      rw [List.mem_singleton.mp member]
      exact arrives rfl rfl
  | code => cases member
  | future => cases member
  | listed =>
      rw [List.mem_singleton.mp member]
      trivial
  | outside =>
      rw [List.mem_singleton.mp member]
      trivial
  | revisit =>
      rw [List.mem_singleton.mp member]
      trivial
  | opened =>
      rcases List.mem_append.mp member with ofFile | last
      · exact forall_mem_fileTasks (P := Task.Finds R) (fun _ _ => trivial) (fun _ => trivial)
          next ofFile
      · rw [List.mem_singleton.mp last]
        trivial
  | bound => cases member
  | boundOutside => cases member

/-! ### The agenda holds statements of files -/

/-- **How a task was read**: its line was lexed, or its clause is one of the tokens of a
line that was. -/
def Task.Read : Task → Prop
  | .code _ _ _ lexed => ∃ state line, lexed = (lexFrom state line).1
  | .meet c | .visit c _ | .arrive c _ | .settle c _ =>
    ∃ state line forms, classify? (lexFrom state line).1.tokens = some forms ∧ c.form ∈ forms

/-- The words of a task are identifiers. -/
def Task.Worded : Task → Prop
  | .code _ _ _ lexed => lexed.Worded
  | .meet c | .visit c _ | .arrive c _ | .settle c _ => c.form.Worded

theorem Task.Read.worded (read : task.Read) : task.Worded := by
  have clause : ∀ {form : ImportForm}, (∃ state line forms,
      classify? (lexFrom state line).1.tokens = some forms ∧ form ∈ forms) → form.Worded := by
    rintro form ⟨state, line, forms, classified, member⟩
    exact (classify?_spelled (lexFrom_worded state line) classified form member).worded
  cases task with
  | code id path number lexed =>
      obtain ⟨state, line, rfl⟩ := read
      exact lexFrom_worded state line
  | meet c => exact clause read
  | visit c path => exact clause read
  | arrive c id => exact clause read
  | settle c found => exact clause read

theorem fileTasks_read (id : Nat) (path : Path) (source : List Char) :
    ∀ task ∈ fileTasks id path source, task.Read := by
  intro task member
  rcases mem_fileTasks member with
    ⟨_, line, _, inFile, rfl⟩ | ⟨_, _, forms, _, form, inFile, inForms, rfl⟩
  · obtain ⟨state, lexed⟩ := statements_read source _ inFile
    exact ⟨state, line, lexed⟩
  · obtain ⟨state, line, classified⟩ := statements_read source _ inFile
    exact ⟨state, line, forms, classified, inForms⟩

/-- A task passes on what was read. -/
theorem Performed.read (performed : Performed tree b task b' new) (read : task.Read) :
    ∀ next ∈ new, next.Read := by
  intro next member
  cases performed with
  | code => simp at member
  | future => simp at member
  | known => rw [List.mem_singleton.mp member]; exact read
  | listed => rw [List.mem_singleton.mp member]; exact read
  | outside => rw [List.mem_singleton.mp member]; exact read
  | revisit => rw [List.mem_singleton.mp member]; exact read
  | opened =>
      rcases List.mem_append.mp member with ofFile | last
      · exact fileTasks_read _ _ _ next ofFile
      · rw [List.mem_singleton.mp last]
        exact read
  | arrive => rw [List.mem_singleton.mp member]; exact read
  | bound => simp at member
  | boundOutside => simp at member

/-- **What one task keeps of the build, a scan keeps**, by cases on the task; the task was
read from a file. -/
theorem Encounter.build_induction {entry : Path} {start : Build} {motive : Build → Prop}
    (opened : ∀ {b id tasks}, enter tree entry start = .ok (b, id, tasks) → motive b)
    (kept : ∀ {b b' : Build} {task : Task} {new : List Task},
      Performed tree b task b' new → task.Read → motive b → motive b')
    {s : Moment} (now : Encounter tree entry start s) : motive s.build := by
  refine (Encounter.invariant (P := fun _ task => task.Read)
    (fun entered => ⟨opened entered, ?_⟩) (fun _ done holds read => ?_) (fun _ waits => waits)
    now).1
  · rcases enter_cases entered with ⟨-, -, rfl⟩ | ⟨-, source, -, -, -, rfl⟩
    · simp
    · exact fileTasks_read _ _ source
  · have performed := performed_of_perform done
    exact ⟨kept performed read holds, performed.read read⟩

end Amalgam
