import Amalgam.Combined
import Amalgam.Proofs.EmissionOrder
import Amalgam.Proofs.FaithfulNames

/-!
# Definitions come before their uses

In a combined program a name is used below the place where it is defined.  Three things
have to be put together.

**A binding comes with a path of dependencies.**  A module sees what another one declares
either because it imports that module or because it imports one that sees it, and so on
along a chain of re-exports.  `Build.Linked` keeps for each binding a path of
dependencies from the module that has it to the module that declares it.  Each import
adds one edge at the head of such a path.

**A dependency is an edge.**  Dependencies are recorded by name and become edges at the
end, by the index of names.  With faithful names the index leads from the name that was
imported to the module whose names were taken.  One import records no dependency, that of
a module's own name, and then the module imports itself.

**An edge is respected by the order** (`Graph.order_ok`).

## Main statements

* `Encounter.linked` — the invariant
* `neighbors_link` — the edges of a linked graph
* `definitions_precede_uses`
-/

namespace Amalgam

/-! ### Paths of dependencies -/

/-- A dependency of the first module leads to the second. -/
def Build.DependsOn (b : Build) (i t : Nat) : Prop :=
  ∃ m name, b.graph.module? i = some m ∧ name ∈ m.dependencies ∧ b.graph.byName? name = some t

/-- A chain of dependencies. -/
abbrev Build.Reaches (b : Build) : Nat → Nat → Prop :=
  Relation.ReflTransGen b.DependsOn

/-- The module with the number declares the qualified name. -/
def Build.DeclaresAt (b : Build) (j : Nat) (q : String) : Prop :=
  ∃ d name, b.graph.module? j = some d ∧ d.symbols.own.find? name = some q

/-- **A binding comes with a path of dependencies**, and dependencies lead to modules. -/
structure Build.Linked (b : Build) : Prop where
  dependency : ∀ {i m name}, b.graph.module? i = some m → name ∈ m.dependencies →
    ∃ t, b.graph.byName? name = some t
  seen : ∀ {i m entry}, b.graph.module? i = some m → entry ∈ m.symbols.seen.entries →
    ∃ j, b.Reaches i j ∧ b.DeclaresAt j entry.2

variable {b b' : Build}

theorem Build.Grows.dependsOn (grows : b.Grows b') {i t : Nat}
    (depends : b.DependsOn i t) : b'.DependsOn i t := by
  obtain ⟨m, name, here, member, leads⟩ := depends
  obtain ⟨m', here', growth⟩ := grows.module here
  exact ⟨m', name, here', growth.dependencies member, grows.byName leads⟩

theorem Build.Grows.reaches (grows : b.Grows b') {i j : Nat}
    (reaches : b.Reaches i j) : b'.Reaches i j :=
  Relation.ReflTransGen.mono (fun _ _ depends => grows.dependsOn depends) i j reaches

/-- What is declared stays declared, under the same qualified name. -/
theorem Build.Grows.declaresAt (grows : b.Grows b') (named : b.WellNamed)
    (named' : b'.WellNamed) {j : Nat} {q : String} (declares : b.DeclaresAt j q) :
    b'.DeclaresAt j q := by
  obtain ⟨d, name, here, found⟩ := declares
  obtain ⟨d', here', growth⟩ := grows.module here
  have declared : d.symbols.own.contains name := by rw [NameMap.contains, found]; rfl
  obtain ⟨q', found'⟩ := Option.isSome_iff_exists.mp (growth.own name declared)
  refine ⟨d', name, here', ?_⟩
  rw [found', (named'.module here').own_find? found', (named.module here).own_find? found,
    growth.scope]

/-! ### Steps that bind nothing -/

/-- The later build has no bindings and dependencies that the earlier one has not. -/
structure Build.BindsNothing (b b' : Build) : Prop where
  seen : ∀ {i m' entry}, b'.graph.module? i = some m' → entry ∈ m'.symbols.seen.entries →
    ∃ m, b.graph.module? i = some m ∧ entry ∈ m.symbols.seen.entries
  dependencies : ∀ {i m' name}, b'.graph.module? i = some m' → name ∈ m'.dependencies →
    ∃ m, b.graph.module? i = some m ∧ name ∈ m.dependencies

namespace Build.BindsNothing

theorem ofGraph (same : ∀ i, b'.graph.module? i = b.graph.module? i) :
    b.BindsNothing b' where
  seen {i m' _} here member := ⟨m', by rw [← same]; exact here, member⟩
  dependencies {i m' _} here member := ⟨m', by rw [← same]; exact here, member⟩

theorem trans {b b' b'' : Build} (first : b.BindsNothing b') (second : b'.BindsNothing b'') :
    b.BindsNothing b'' where
  seen here member := by
    obtain ⟨m, there, before⟩ := second.seen here member
    exact first.seen there before
  dependencies here member := by
    obtain ⟨m, there, before⟩ := second.dependencies here member
    exact first.dependencies there before

theorem declare (b : Build) (id : Nat) (name : String) : b.BindsNothing (b.declare id name) := by
  cases found : b.graph.module? id with
  | none =>
      rw [declare_of_none found]
      exact ofGraph fun _ => rfl
  | some m =>
      have modified : ∀ {i m'}, (b.declare id name).graph.module? i = some m' →
          ∃ old, b.graph.module? i = some old ∧ m'.symbols.seen = old.symbols.seen ∧
            m'.dependencies = old.dependencies := by
        intro i m' here
        rw [declare_of_module found] at here
        rcases module?_modify_cases here with ⟨rfl, old, there, rfl⟩ | ⟨-, there⟩
        · exact ⟨old, there, rfl, rfl⟩
        · exact ⟨m', there, rfl, rfl⟩
      refine ⟨fun here member => ?_, fun here member => ?_⟩
      · obtain ⟨old, there, seen, -⟩ := modified here
        exact ⟨old, there, seen ▸ member⟩
      · obtain ⟨old, there, -, dependencies⟩ := modified here
        exact ⟨old, there, dependencies ▸ member⟩

theorem scanCode (id : Nat) (path : Path) (number : Nat) (lexed : LexedLine) (b : Build) :
    b.BindsNothing (scanCode id path number lexed b) :=
  scanCode_induction (fun _ name _ kept => kept.trans (declare _ id name))
    (fun _ _ noted kept => kept.trans (ofGraph fun _ => by rw [noted.graph]))
    (ofGraph fun _ => rfl)

theorem openModule {full : Path} (new : b.graph.byPath? full = none)
    (source : List Char) : b.BindsNothing (openModule full source b).1 := by
  refine ⟨fun here member => ?_, fun here member => ?_⟩
  · rcases module?_openModule_cases new here with ⟨-, rfl⟩ | old
    · cases member
    · exact ⟨_, old, member⟩
  · rcases module?_openModule_cases new here with ⟨-, rfl⟩ | old
    · cases member
    · exact ⟨_, old, member⟩

end Build.BindsNothing

/-- **One task binds**: acting on a clause whose module was found. -/
theorem Performed.bindsNothing_or_bound {tree : FileTree} {task : Task} {new : List Task}
    (performed : Performed tree b task b' new) :
    b.BindsNothing b' ∨ ∃ c found, task = .settle c (some found) ∧
      b' = bindModule c.importer found c.path c.number c.form b := by
  cases performed with
  | code id path number lexed => exact Or.inl (.scanCode id path number lexed b)
  | future => exact Or.inl (.ofGraph fun _ => rfl)
  | known => exact Or.inl (.ofGraph fun _ => rfl)
  | listed => exact Or.inl (.ofGraph fun _ => rfl)
  | outside => exact Or.inl (.ofGraph fun _ => rfl)
  | revisit => exact Or.inl (.ofGraph fun _ => rfl)
  | opened absent => exact Or.inl (.openModule absent _)
  | arrive c id => exact Or.inl (.ofGraph fun i => Graph.module?_addName b.graph c.source id i)
  | bound c found => exact Or.inr ⟨c, found, rfl, rfl⟩
  | boundOutside c =>
      have noted := OnlyNotes.bindExternal c.importer c.path c.number c.form c.topLevel b
      exact Or.inl (.ofGraph fun _ => by rw [noted.graph])

theorem Build.Linked.grow (linked : b.Linked) (grows : b.Grows b')
    (nothing : b.BindsNothing b') (named : b.WellNamed) (named' : b'.WellNamed) : b'.Linked where
  dependency here member := by
    obtain ⟨m, there, before⟩ := nothing.dependencies here member
    obtain ⟨t, leads⟩ := linked.dependency there before
    exact ⟨t, grows.byName leads⟩
  seen here member := by
    obtain ⟨m, there, before⟩ := nothing.seen here member
    obtain ⟨j, reaches, declares⟩ := linked.seen there before
    exact ⟨j, grows.reaches reaches, grows.declaresAt named named' declares⟩

/-! ### The step that binds -/

theorem Module.mem_addDependency {m : Module} {name other : String} :
    other ∈ (m.addDependency name).dependencies ↔
      other ∈ m.dependencies ∨ name ≠ m.name ∧ other = name := by
  unfold Module.addDependency
  split
  next own => simp [own]
  next different => simp [different]

/-- **An import adds an edge at the head of the paths that it copies**, unless the
module imports itself. -/
theorem Build.Linked.bound (linked : b.Linked) (named : b.WellNamed) {id found : Nat}
    {path : Path} {number : Nat} {form : ImportForm}
    (named' : (bindModule id found path number form b).WellNamed)
    (leads : b.graph.byName? form.source = some found)
    (itself : ∀ {m}, b.graph.module? id = some m → m.name = form.source → id = found) :
    (bindModule id found path number form b).Linked := by
  have grows := (Build.Keeps.bindModule id found path number form b).toGrows
  have before : ∀ {i m entry}, b.graph.module? i = some m → entry ∈ m.symbols.seen.entries →
      ∃ j, (bindModule id found path number form b).Reaches i j ∧
        (bindModule id found path number form b).DeclaresAt j entry.2 := by
    intro i m entry here member
    obtain ⟨j, reaches, declares⟩ := linked.seen here member
    exact ⟨j, grows.reaches reaches, grows.declaresAt named named' declares⟩
  refine ⟨fun {i m' name} here member => ?_, fun {i m' entry} here member => ?_⟩
  · rw [graph_bindModule] at here
    rcases module?_modify_cases here with ⟨rfl, m, there, rfl⟩ | ⟨-, there⟩
    · rcases Module.mem_addDependency.mp member with old | ⟨-, rfl⟩
      · obtain ⟨t, before⟩ := linked.dependency there old
        exact ⟨t, grows.byName before⟩
      · exact ⟨found, grows.byName leads⟩
    · obtain ⟨t, before⟩ := linked.dependency there member
      exact ⟨t, grows.byName before⟩
  · have now := here
    rw [graph_bindModule] at here
    rcases module?_modify_cases here with ⟨rfl, m, there, rfl⟩ | ⟨-, there⟩
    · rw [Module.symbols_takeClause] at member
      rcases SymbolTable.mem_seen_bindAll member with new | old
      · have edge : (bindModule i found path number form b).Reaches i found := by
          by_cases own : m.name = form.source
          · rw [itself there own]
          · refine .single ⟨_, form.source, now, ?_, grows.byName leads⟩
            exact Module.mem_addDependency.mpr (Or.inr ⟨Ne.symm own, rfl⟩)
        obtain ⟨name, inTable, -⟩ := importedNames_cases new
        obtain ⟨d, other, own | seen⟩ := module?_of_mem_symbolsOf inTable
        · refine ⟨found, edge, grows.declaresAt named named' ?_⟩
          exact ⟨d, name, other, (named.module other).find?_of_mem_own own⟩
        · obtain ⟨j, reaches, declares⟩ := before other seen
          exact ⟨j, edge.trans reaches, declares⟩
      · exact before there old
    · exact before there member

/-! ### The whole scan -/

section Scan

variable {tree : FileTree} {entry : Path} {start last : Build}

/-- The build before a scan binds nothing. -/
theorem linked_start (table : SearchTable) (wildcard : WildcardPolicy) (cycles : CyclePolicy)
    (diagnostics : List Diagnostic) :
    ({ table, wildcard, cycles, diagnostics } : Build).Linked where
  dependency here := by simp at here
  seen here := by simp at here

/-- With faithful names, **a module that imports its own name imports itself**: it and the
module found are those of the table for the same name. -/
theorem Encounter.imports_itself (faithful : FaithfulNames tree entry last)
    (ends : Encounter tree entry start ⟨last, []⟩) (traced : start.Traced tree)
    (origins : start.Origins tree entry) {b : Build} {c : Clause} {found : Nat} {rest : List Task}
    (now : Encounter tree entry start ⟨b, .settle c (some found) :: rest⟩)
    (leads : b.graph.byName? c.source = some found) {m : Module}
    (here : b.graph.module? c.importer = some m) (own : m.name = c.source) :
    c.importer = found := by
  have grows : b.Grows last := (now.leads_end ends).grows
  have tracedNow := (now.traced traced).1
  obtain ⟨originsNow, grounded⟩ := now.grounded traced origins
  have imported := grows.importSources (grounded _ List.mem_cons_self)
  have itself : b.ListedAt tree m.name c.importer :=
    faithful.listedAt grows originsNow here (own ▸ imported)
  rw [own] at itself
  exact tracedNow.eq_of_listedAt itself
    (faithful.listedAt_of_byName? grows tracedNow originsNow imported leads)

/-- **Every binding of a scan comes with a path of dependencies**, if the scan ends and
names are faithful then. -/
theorem Encounter.linked (faithful : FaithfulNames tree entry last)
    (ends : Encounter tree entry start ⟨last, []⟩) (named : start.WellNamed)
    (traced : start.Traced tree) (origins : start.Origins tree entry) (linked : start.Linked)
    {s : Moment} (now : Encounter tree entry start s) :
    s.build.Linked ∧
      ∀ task ∈ s.agenda, task.Finds fun name id => s.build.graph.byName? name = some id := by
  refine Encounter.invariant
    (P := fun b task => task.Finds fun name id => b.graph.byName? name = some id)
    (fun {b id tasks} entered => ?_)
    (fun {b b' task rest new} moment done linked leads => ?_)
    (fun performed waits => waits.mono fun _ _ leads => performed.grows.byName leads) now
  · have first : Encounter tree entry start ⟨b, tasks⟩ := ⟨b, id, tasks, entered, .refl⟩
    rcases enter_cases entered with ⟨-, rfl, rfl⟩ | ⟨absent, source, -, rfl, rfl, rfl⟩
    · exact ⟨linked, by simp⟩
    · exact ⟨linked.grow (.openModule absent source) (.openModule absent source) named
        (first.wellNamed named), forall_mem_fileTasks (fun _ _ => trivial) (fun _ => trivial)⟩
  · have performed := performed_of_perform done
    have grows : b.Grows last := (moment.leads_end ends).grows
    obtain ⟨tracedNow, tracedTasks⟩ := moment.traced traced
    obtain ⟨originsNow, grounded⟩ := moment.grounded traced origins
    have namedNow := moment.wellNamed named
    have namedThen := (moment.next done).wellNamed named
    constructor
    · rcases performed.bindsNothing_or_bound with nothing | ⟨c, found, rfl, rfl⟩
      · exact linked.grow performed.grows nothing namedNow namedThen
      · exact linked.bound namedNow namedThen leads fun here own =>
          Encounter.imports_itself faithful ends traced origins moment leads here own
    · refine performed.finds_new (fun _ same _ known => ?_) (fun {c id} isArrival after => ?_)
      · rw [same]
        exact byName?_of_knownModule? known
      · subst isArrival after
        change (b.graph.addName c.source id).byName? c.source = some id
        rw [Graph.byName?_addName, if_pos rfl]
        cases before : b.graph.byName? c.source with
        | none => rfl
        | some other =>
            -- the name led to a module before, and the table gives no other
            have imported := grows.importSources (grounded _ List.mem_cons_self)
            have there := faithful.listedAt_of_byName? grows tracedNow originsNow imported before
            have here := (tracedTasks _ List.mem_cons_self).1
            rw [tracedNow.eq_of_listedAt there here, Option.some_or]

end Scan

/-! ### Edges of a linked graph -/

namespace Graph

/-- An edge is a dependency that leads to another module. -/
theorem mem_edgesOf {g : Graph} {id t : Nat} {dependencies : List String} :
    t ∈ g.edgesOf id dependencies ↔
      ∃ name ∈ dependencies, g.target? name = some t ∧ t ≠ id := by
  unfold edgesOf
  suffices collected : ∀ edges : List Nat, t ∈ dependencies.foldl _ edges ↔
      t ∈ edges ∨ ∃ name ∈ dependencies, g.target? name = some t ∧ t ≠ id by
    exact (collected []).trans (by simp)
  induction dependencies with
  | nil => simp
  | cons first rest ih =>
      intro edges
      rw [List.foldl_cons, ih, List.exists_mem_cons_iff]
      cases found : g.target? first with
      | none => simp
      | some target =>
          by_cases own : target = id
          · simp only [own, if_true, Option.some.injEq]
            grind
          · simp only [own, if_false, mem_insertLast, Option.some.injEq]
            grind

@[simp] theorem module?_link (g : Graph) (i : Nat) : g.link.module? i = g.module? i := by
  simp [module?, link, Option.map_map, Function.comp_def]

@[simp] theorem length_nodes_link (g : Graph) : g.link.nodes.length = g.nodes.length := by
  simp [link]

/-- The edges of a module are those of its dependencies. -/
theorem neighbors_link {g : Graph} {i : Nat} {m : Module} (here : g.module? i = some m) :
    g.link.neighbors i = g.edgesOf i m.dependencies := by
  obtain ⟨node, there, rfl⟩ := Option.map_eq_some_iff.mp here
  simp [neighbors, link, there]

/-- If names lead to modules, edges do. -/
theorem edgesValid_link {g : Graph}
    (leads : ∀ {name t}, g.byName? name = some t → t < g.nodes.length) : g.link.EdgesValid := by
  intro i t edge
  rw [length_nodes_link]
  cases here : g.module? i with
  | none =>
      have missing : g.nodes[i]? = none := Option.map_eq_none_iff.mp here
      simp [neighbors, link, missing] at edge
  | some m =>
      rw [neighbors_link here] at edge
      obtain ⟨name, -, target, -⟩ := mem_edgesOf.mp edge
      unfold target? at target
      cases known : g.byName? name with
      | some id =>
          rw [known] at target
          cases target
          exact leads known
      | none =>
          rw [known] at target
          exact (List.findIdx?_eq_some_iff_getElem.mp target).1

end Graph

/-! ### The combined program -/

variable {tree : FileTree} {entry : Path} {start : Build} {combined : Combined}

/-- A combined program is the text of a build that was scanned and finished. -/
theorem combine_finished (built : combine tree entry start = .ok combined) :
    ∃ id scanned, start.scanPath tree entry = (.ok id, scanned) ∧
      scanned.finish = (.ok (), combined.build) ∧
      combined.source = String.ofList combined.build.write := by
  unfold combine at built
  rcases scan : start.scanPath tree entry with ⟨fault | id, scanned⟩
  · rw [scan] at built
    cases built
  · rw [scan] at built
    dsimp only at built
    rcases ended : scanned.finish with ⟨fault | ⟨⟩, finished⟩
    · rw [ended] at built
      cases built
    · rw [ended] at built
      cases built
      exact ⟨id, scanned, rfl, ended, rfl⟩

/-- A build that could be finished has an order, and knows what it knew. -/
theorem Build.finish_eq_ok {b finished : Build} (ended : b.finish = (.ok (), finished)) :
    ∃ order, b.graph.link.order b.cycles = .ok order ∧
      finished.graph = b.graph.link ∧ finished.table = b.table ∧ finished.futures = b.futures ∧
      finished.emissionOrder = order.modules := by
  unfold finish at ended
  dsimp only at ended
  cases ordered : b.graph.link.order b.cycles with
  | error cycle =>
      rw [ordered] at ended
      cases ended
  | ok order =>
      rw [ordered] at ended
      cases ended
      exact ⟨order, rfl, rfl, rfl, rfl, rfl⟩

/-- What a combined program is made from. -/
theorem combine_eq_ok (built : combine tree entry start = .ok combined) :
    ∃ id scanned order, start.scanPath tree entry = (.ok id, scanned) ∧
      scanned.graph.link.order scanned.cycles = .ok order ∧
      combined.build.graph = scanned.graph.link ∧ combined.build.table = scanned.table ∧
      combined.build.emissionOrder = order.modules := by
  obtain ⟨id, scanned, scan, ended, -⟩ := combine_finished built
  obtain ⟨order, ordered, graph, table, -, emission⟩ := Build.finish_eq_ok ended
  exact ⟨id, scanned, order, scan, ordered, graph, table, emission⟩

/-- Faithfulness is seen from the modules and the table. -/
theorem FaithfulNames.congr (faithful : FaithfulNames tree entry b)
    (table : b.table = b'.table)
    (modules : ∀ i, b.graph.module? i = b'.graph.module? i) : FaithfulNames tree entry b' := by
  have sources : ∀ {name}, name ∈ b'.importSources → name ∈ b.importSources := by
    intro name member
    obtain ⟨i, m, here, imported⟩ := Build.mem_importSources.mp member
    exact Build.mem_importSources.mpr ⟨i, m, by rw [modules]; exact here, imported⟩
  refine ⟨fun name member p given => ?_, fun member => ?_⟩
  · exact faithful.listed name (sources member) p (by rw [table]; exact given)
  · rw [← table]
    exact faithful.entry (sources member)

/-- Along dependencies the order goes back. -/
theorem idxOf_le_of_reaches {order : EmissionOrder}
    (valid : b.graph.link.EdgesValid) (ordered : b.graph.link.order .reject = .ok order)
    {i j : Nat} (reaches : b.Reaches i j) :
    order.modules.idxOf j ≤ order.modules.idxOf i := by
  obtain ⟨-, complete, respects⟩ := Graph.order_ok valid ordered
  induction reaches with
  | refl => exact Nat.le_refl _
  | @tail u t _ depends ih =>
      obtain ⟨m, name, here, member, leads⟩ := depends
      by_cases own : t = u
      · rw [own]
        exact ih
      · have edge : t ∈ b.graph.link.neighbors u := by
          rw [Graph.neighbors_link here]
          refine Graph.mem_edgesOf.mpr ⟨name, member, ?_, own⟩
          rw [Graph.target?, leads]
          rfl
        have inside : u < b.graph.link.nodes.length := by
          rw [Graph.length_nodes_link]
          exact Graph.module?_isSome_iff.mp (by rw [here]; rfl)
        rcases respects u (complete u inside) t edge with before | dropped
        · exact before.le.trans ih
        · rw [Graph.order_reject valid ordered] at dropped
          cases dropped

/-- **Definitions come before their uses.**  Take any program that was combined under the
rejecting policy and in which names are faithful.  No module is twice in the order of
emission, and if a module sees under an alias what another module declares, both are in
the order and the other one comes first. -/
theorem definitions_precede_uses {tree : FileTree} {entry : Path} {table : SearchTable}
    {wildcard : WildcardPolicy} {diagnostics : List Diagnostic} {combined : Combined}
    (built : combine tree entry { table, wildcard, cycles := .reject, diagnostics } = .ok combined)
    (faithful : FaithfulNames tree entry combined.build) :
    combined.build.emissionOrder.Nodup ∧
    ∀ i m label q, combined.build.graph.module? i = some m →
      m.symbols.seen.find? label = some q →
      ∀ j d name, combined.build.graph.module? j = some d → d.symbols.own.find? name = some q →
        j ≠ i → i ∈ combined.build.emissionOrder ∧
          combined.build.emissionOrder.idxOf j < combined.build.emissionOrder.idxOf i := by
  obtain ⟨id, scanned, order, scan, ordered, graph, sameTable, emission⟩ := combine_eq_ok built
  have modules : ∀ i, combined.build.graph.module? i = scanned.graph.module? i := by
    intro i
    rw [graph, Graph.module?_link]
  obtain ⟨b₁, tasks, entered, leads⟩ := scanPath_ok_encounter scan
  have ends : Encounter tree entry { table, wildcard, cycles := .reject, diagnostics }
      ⟨scanned, []⟩ := ⟨b₁, id, tasks, entered, leads⟩
  have policy : scanned.cycles = .reject := ends.grows.cycles
  rw [policy] at ordered
  have named : scanned.WellNamed :=
    ends.wellNamed (wellNamed_start table wildcard .reject diagnostics)
  have begins := traced_start tree table wildcard .reject diagnostics
  have traced : scanned.Traced tree := (ends.traced begins).1
  have linked : scanned.Linked :=
    (Encounter.linked (faithful.congr sameTable modules) ends
      (wellNamed_start table wildcard .reject diagnostics) begins
      (origins_start tree entry table wildcard .reject diagnostics)
      (linked_start table wildcard .reject diagnostics) ends).1
  have valid : scanned.graph.link.EdgesValid := by
    refine Graph.edgesValid_link fun leads => ?_
    obtain ⟨m, here, -⟩ := traced.named leads
    exact Graph.module?_isSome_iff.mp (by rw [here]; rfl)
  obtain ⟨nodup, complete, -⟩ := Graph.order_ok valid ordered
  rw [emission]
  refine ⟨nodup, fun i m label q here sees j d name there declares different => ?_⟩
  rw [modules] at here there
  obtain ⟨j', reaches, d', name', there', declares'⟩ :=
    linked.seen here (NameMap.mem_entries_of_find? sees)
  -- the qualified name tells which module declares it
  have same : j' = j := by
    have qualified := (named.module there').own_find? declares'
    rw [(named.module there).own_find? declares] at qualified
    obtain ⟨scope, -⟩ := qualify_inj (named.module there).scope_identifier
      (named.module there').scope_identifier qualified
    exact (named.scope_inj there there' scope).symm
  subst same
  have position : ∀ {k n}, scanned.graph.module? k = some n → k ∈ order.modules := by
    intro k n found
    refine complete k ?_
    rw [Graph.length_nodes_link]
    exact Graph.module?_isSome_iff.mp (by rw [found]; rfl)
  refine ⟨position here, lt_of_le_of_ne (idxOf_le_of_reaches valid ordered reaches) ?_⟩
  exact fun equal => different ((List.idxOf_inj (position there)).mp equal)

/-- What a computation that succeeds gives. -/
theorem eq_ok_of_mem_toOption {ε α : Type} {outcome : Except ε α} {a : α}
    (given : a ∈ outcome.toOption) : outcome = .ok a := by
  cases outcome with
  | error fault => cases given
  | ok other =>
      cases given
      rfl

/-- A program in which `main` gets `f` from `a`, which has it from `b`. -/
def chainTree : FileTree where
  entries :=
    [(["proj"], .dir),
     (["proj", "main.py"], .file (encodeUtf8 "from a import f\nf()\n".toList) false),
     (["proj", "a.py"], .file (encodeUtf8 "from b import f\n".toList) false),
     (["proj", "b.py"], .file (encodeUtf8 "def f():\n    pass\n".toList) false)]
  workdir := ["proj"]

/-- What the directory `proj` offers. -/
def chainTable : SearchTable :=
  ⟨[("a", ⟨"/proj/a.py"⟩), ("b", ⟨"/proj/b.py"⟩), ("main", ⟨"/proj/main.py"⟩)]⟩

/-- `b`, which `main` does not import, comes before it. -/
theorem definitions_precede_uses_chainTree :
    ∃ combined, combine chainTree ⟨"/proj/main.py"⟩ { table := chainTable } = .ok combined ∧
      FaithfulNames chainTree ⟨"/proj/main.py"⟩ combined.build ∧
      combined.build.emissionOrder.idxOf 2 < combined.build.emissionOrder.idxOf 0 := by
  have computed : ∃ combined ∈
      (combine chainTree ⟨"/proj/main.py"⟩ { table := chainTable }).toOption,
      FaithfulNames chainTree ⟨"/proj/main.py"⟩ combined.build ∧
      ((combined.build.graph.module? 0).bind (·.symbols.seen.find? "f") = some "b.f" ∧
        (combined.build.graph.module? 2).bind (·.symbols.own.find? "f") = some "b.f") := by
    decide +kernel
  obtain ⟨combined, given, faithful, sees, declares⟩ := computed
  have built := eq_ok_of_mem_toOption given
  obtain ⟨m, here, seen⟩ := Option.bind_eq_some_iff.mp sees
  obtain ⟨d, there, own⟩ := Option.bind_eq_some_iff.mp declares
  exact ⟨combined, built, faithful,
    ((definitions_precede_uses built faithful).2 0 m "f" "b.f" here seen 2 d "f" there own
      (by decide)).2⟩

end Amalgam
