import Amalgam.Proofs.Namespaces

/-!
# A build only grows

Whatever a scan does, the modules that are there stay there, under their numbers and
names, and gain declarations and dependencies; names and paths go on leading where they lead;
what was visited or found to be outside stays so.  `Build.Grows` says this of two builds and
`Leads.grows` of two moments of a scan, so a fact about the modules of one moment can be
carried to all later ones.

Only one task adds a module, the visit of a file that is not there yet.  For any other
the converse holds as well, each module of the later build was there before
(`Build.Keeps`), and `Performed.keeps_or_opened` tells the two apart.
-/

namespace Amalgam

/-! ### Modules -/

/-- The module is the same and knows more. -/
structure Module.Grows (m m' : Module) : Prop where
  name : m'.name = m.name
  scope : m'.scope = m.scope
  path : m'.path = m.path
  source : m'.source = m.source
  dependencies : m.dependencies ⊆ m'.dependencies
  own : ∀ name, m.symbols.own.contains name → m'.symbols.own.contains name

namespace Module.Grows

theorem refl (m : Module) : m.Grows m :=
  ⟨rfl, rfl, rfl, rfl, List.Subset.refl _, fun _ declared => declared⟩

theorem trans {m m' m'' : Module} (first : m.Grows m') (second : m'.Grows m'') : m.Grows m'' where
  name := second.name.trans first.name
  scope := second.scope.trans first.scope
  path := second.path.trans first.path
  source := second.source.trans first.source
  dependencies := List.Subset.trans first.dependencies second.dependencies
  own name declared := second.own name (first.own name declared)

theorem declare (m : Module) (name : String) : m.Grows (m.declare name) where
  name := rfl
  scope := rfl
  path := rfl
  source := rfl
  dependencies := List.Subset.refl _
  own other declared := by
    change ((m.symbols.own.insert name (qualify m.scope name)).find? other).isSome
    rw [NameMap.find?_insert]
    split
    · rfl
    · exact declared

theorem addDependency (m : Module) (name : String) : m.Grows (m.addDependency name) := by
  unfold Module.addDependency
  split
  · exact refl m
  · exact ⟨rfl, rfl, rfl, rfl, fun _ member => mem_insertLast.mpr (Or.inl member),
      fun _ declared => declared⟩

theorem bindAll (m : Module) (pairs : List (String × String)) : m.Grows (m.bindAll pairs) where
  name := rfl
  scope := rfl
  path := rfl
  source := rfl
  dependencies := List.Subset.refl _
  own other declared := by
    rw [Module.bindAll, SymbolTable.own_bindAll]
    exact declared

theorem takeClause (wildcard : WildcardPolicy) (symbols : SymbolTable) (form : ImportForm)
    (m : Module) : m.Grows (m.takeClause wildcard symbols form) :=
  (addDependency m form.source).trans (bindAll _ _)

end Module.Grows

/-! ### Builds -/

/-- **The later build has all that the earlier one has.** -/
structure Build.Grows (b b' : Build) : Prop where
  table : b'.table = b.table
  wildcard : b'.wildcard = b.wildcard
  cycles : b'.cycles = b.cycles
  module : ∀ {i : Nat} {m : Module}, b.graph.module? i = some m →
    ∃ m', b'.graph.module? i = some m' ∧ m.Grows m'
  byName : ∀ {name : String} {id : Nat}, b.graph.byName? name = some id →
    b'.graph.byName? name = some id
  byPath : ∀ {p : Path} {id : Nat}, b.graph.byPath? p = some id → b'.graph.byPath? p = some id
  visited : b.visited ⊆ b'.visited
  externals : b.externals ⊆ b'.externals

/-- The later build has moreover no other modules and paths. -/
structure Build.Keeps (b b' : Build) : Prop extends Build.Grows b b' where
  paths : b'.graph.paths = b.graph.paths
  earlier : ∀ {i : Nat} {m' : Module}, b'.graph.module? i = some m' →
    ∃ m, b.graph.module? i = some m ∧ m.Grows m'

/-- Longer lists of paths keep what is found in them. -/
theorem Graph.byPath?_of_prefix {g g' : Graph} (longer : g.paths <+: g'.paths) {p : Path}
    {id : Nat} (leads : g.byPath? p = some id) : g'.byPath? p = some id := by
  obtain ⟨later, all⟩ := longer
  obtain ⟨entry, found, number⟩ := Option.map_eq_some_iff.mp leads
  rw [byPath?, ← all, List.find?_append, found, Option.some_or, Option.map_some, number]

theorem Build.Grows.trans {b b' b'' : Build} (first : b.Grows b') (second : b'.Grows b'') :
    b.Grows b'' where
  table := second.table.trans first.table
  wildcard := second.wildcard.trans first.wildcard
  cycles := second.cycles.trans first.cycles
  module here := by
    obtain ⟨m', here', grows⟩ := first.module here
    obtain ⟨m'', here'', grows'⟩ := second.module here'
    exact ⟨m'', here'', grows.trans grows'⟩
  byName leads := second.byName (first.byName leads)
  byPath leads := second.byPath (first.byPath leads)
  visited := List.Subset.trans first.visited second.visited
  externals := List.Subset.trans first.externals second.externals

namespace Build.Keeps

theorem trans {b b' b'' : Build} (first : b.Keeps b') (second : b'.Keeps b'') : b.Keeps b'' where
  toGrows := first.toGrows.trans second.toGrows
  paths := second.paths.trans first.paths
  earlier here := by
    obtain ⟨m', here', grows'⟩ := second.earlier here
    obtain ⟨m, there, grows⟩ := first.earlier here'
    exact ⟨m, there, grows.trans grows'⟩

/-- A build with the same modules and names keeps all. -/
theorem ofGraph {b b' : Build} (graph : b'.graph = b.graph) (table : b'.table = b.table)
    (wildcard : b'.wildcard = b.wildcard) (cycles : b'.cycles = b.cycles)
    (visited : b.visited ⊆ b'.visited) (externals : b.externals ⊆ b'.externals) : b.Keeps b' where
  table := table
  wildcard := wildcard
  cycles := cycles
  module {_ m} here := ⟨m, by rw [graph]; exact here, .refl m⟩
  byName leads := by rw [graph]; exact leads
  byPath leads := by rw [graph]; exact leads
  visited := visited
  externals := externals
  paths := by rw [graph]
  earlier {_ m} here := ⟨m, by rw [← graph]; exact here, .refl m⟩

theorem ofNotes {b b' : Build} (noted : OnlyNotes b b') : b.Keeps b' := by
  refine ofGraph noted.graph noted.table noted.wildcard noted.cycles ?_ ?_
  · rw [noted.visited]
    exact List.Subset.refl _
  · rw [noted.externals]
    exact List.Subset.refl _

theorem refl (b : Build) : b.Keeps b :=
  ofNotes (.refl b)

theorem markVisited (b : Build) (name : String) : b.Keeps (b.markVisited name) :=
  ofGraph rfl rfl rfl rfl (fun _ member => mem_insertLast.mpr (Or.inl member)) (List.Subset.refl _)

theorem addExternal (b : Build) (name : String) : b.Keeps (b.addExternal name) :=
  ofGraph rfl rfl rfl rfl (List.Subset.refl _) (fun _ member => mem_insertLast.mpr (Or.inl member))

/-- Growing one module keeps all. -/
theorem modified {b b' : Build} {id : Nat} {f : Module → Module}
    (graph : b'.graph = b.graph.modify id f) (same : SameLookup b b')
    (grows : ∀ m : Module, m.Grows (f m)) : b.Keeps b' where
  table := same.table
  wildcard := same.wildcard
  cycles := same.cycles
  module {i m} here := by
    refine ⟨_, by rw [graph]; exact module?_modify_of id here, ?_⟩
    split
    · exact grows m
    · exact .refl m
  byName leads := by
    rw [graph, Graph.byName?_modify]
    exact leads
  byPath leads := by rw [graph]; exact leads
  visited := by
    rw [same.visited]
    exact List.Subset.refl _
  externals := by
    rw [same.externals]
    exact List.Subset.refl _
  paths := by rw [graph]; rfl
  earlier {i m'} here := by
    rw [graph] at here
    rcases module?_modify_cases here with ⟨rfl, m, there, rfl⟩ | ⟨-, there⟩
    · exact ⟨m, there, grows m⟩
    · exact ⟨m', there, .refl m'⟩

theorem declare (b : Build) (id : Nat) (name : String) : b.Keeps (b.declare id name) := by
  cases here : b.graph.module? id with
  | none =>
      rw [declare_of_none here]
      exact refl b
  | some m =>
      have graph : (b.declare id name).graph = b.graph.modify id (·.declare name) := by
        rw [declare_of_module here]
        rfl
      exact modified graph (sameLookup_declare b id name) (.declare · name)

theorem scanCode (id : Nat) (path : Path) (number : Nat) (lexed : LexedLine) (b : Build) :
    b.Keeps (scanCode id path number lexed b) :=
  scanCode_induction (fun _ name _ kept => kept.trans (declare _ id name))
    (fun _ _ noted kept => kept.trans (ofNotes noted)) (refl b)

theorem bindModule (id found : Nat) (path : Path) (number : Nat) (form : ImportForm) (b : Build) :
    b.Keeps (bindModule id found path number form b) :=
  modified (graph_bindModule id found path number form b)
    (sameLookup_bindModule id found path number form b) (.takeClause _ _ _)

/-- A name that begins to lead to a module takes nothing from others. -/
theorem addName (b : Build) (name : String) (id : Nat) :
    b.Keeps { b with graph := b.graph.addName name id } where
  table := rfl
  wildcard := rfl
  cycles := rfl
  module {_ m} here := ⟨m, by rw [Graph.module?_addName]; exact here, .refl m⟩
  byName {other id'} leads := by
    rw [Graph.byName?_addName]
    split
    next same =>
      -- the name led somewhere already, and goes on leading there
      rw [← same, leads]
      rfl
    next => exact leads
  byPath leads := by rw [Graph.byPath?, Graph.paths_addName]; exact leads
  visited := List.Subset.refl _
  externals := List.Subset.refl _
  paths := b.graph.paths_addName name id
  earlier {_ m} here := ⟨m, by rw [Graph.module?_addName] at here; exact here, .refl m⟩

end Build.Keeps

theorem visited_openModule (full : Path) (source : List Char) (b : Build) :
    (openModule full source b).1.visited = insertLast b.visited (moduleName full) := rfl

/-- Opening a file adds its module to all that is there. -/
theorem Build.Grows.openModule {b : Build} {full : Path} (new : b.graph.byPath? full = none)
    (source : List Char) : b.Grows (openModule full source b).1 where
  table := rfl
  wildcard := rfl
  cycles := rfl
  module {i m} here := by
    have below : i < b.graph.nodes.length := Graph.module?_isSome_iff.mp (by simp [here])
    refine ⟨m, ?_, .refl m⟩
    rw [module?_openModule new, if_neg (Nat.ne_of_lt below)]
    exact here
  byName leads := by
    rw [byName?_openModule new]
    split
    · rw [leads]
      rfl
    · exact leads
  byPath leads := Graph.byPath?_of_prefix ⟨_, (paths_openModule new source).symm⟩ leads
  visited := by
    rw [visited_openModule]
    exact fun _ member => mem_insertLast.mpr (Or.inl member)
  externals := List.Subset.refl _

/-! ### Scans -/

variable {tree : FileTree} {b b' : Build} {task : Task} {new : List Task} {s s' : Moment}

/-- **One task adds modules**: the visit of a file that is not there yet. -/
theorem Performed.keeps_or_opened (performed : Performed tree b task b' new) :
    b.Keeps b' ∨ ∃ c path source, task = .visit c path ∧
      b.graph.byPath? (tree.canonical path) = none ∧
      b' = (openModule (tree.canonical path) source b).1 := by
  cases performed with
  | code id path number lexed => exact Or.inl (.scanCode id path number lexed b)
  | future => exact Or.inl (.ofNotes (.addFuture b _))
  | known => exact Or.inl (.refl b)
  | listed => exact Or.inl (.markVisited b _)
  | outside => exact Or.inl (.addExternal b _)
  | revisit => exact Or.inl (.refl b)
  | opened absent => exact Or.inr ⟨_, _, _, rfl, absent, rfl⟩
  | arrive c id => exact Or.inl (.addName b _ id)
  | bound c found => exact Or.inl (.bindModule _ found _ _ _ b)
  | boundOutside c => exact Or.inl (.ofNotes (.bindExternal _ _ _ _ _ b))

theorem Performed.grows (performed : Performed tree b task b' new) : b.Grows b' := by
  rcases performed.keeps_or_opened with kept | ⟨c, path, source, -, absent, rfl⟩
  · exact kept.toGrows
  · exact .openModule absent source

/-- **A later moment of a scan has all that an earlier one has.** -/
theorem Leads.grows (leads : Leads tree s s') : s.build.Grows s'.build := by
  induction leads with
  | refl => exact (Build.Keeps.refl s.build).toGrows
  | tail _ step ih =>
      cases step with
      | perform performed => exact ih.trans (performed_of_perform performed).grows

/-- Every moment of a scan has all that the scan began with. -/
theorem Encounter.grows {entry : Path} {start : Build} (now : Encounter tree entry start s) :
    start.Grows s.build := by
  obtain ⟨b, id, tasks, entered, leads⟩ := now
  rcases enter_cases entered with ⟨-, rfl, -⟩ | ⟨absent, source, -, -, rfl, -⟩
  · exact leads.grows
  · exact (Build.Grows.openModule absent source).trans leads.grows

end Amalgam
