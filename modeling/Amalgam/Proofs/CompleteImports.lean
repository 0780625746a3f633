import Amalgam.Proofs.DefinitionOrder
import Amalgam.Proofs.Extension

/-!
# Imports copy finished modules

An import copies the names that a module has at that moment.  If files import each other
in a circle, one of them is half scanned when another copies from it.  Circles are looked
for after the scan, so nothing stops such a copy when it is made.  What holds is that a
program in which one was made is rejected.

**Waiting tasks are nested.**  A file is opened by a clause of another one, and the tasks
of the new file are put in front of those of the old.  Going down the agenda, the tasks
write to one module until the `arrive` of the clause that led to it; from there on they
write to the importer of that clause (`Nested`).

**Waiting tasks reach the first one.**  In a scan that ends, each such clause is acted on
some time and records a dependency.  So in the last build there is a chain of dependencies
from the module of any waiting task to the module of the first one.

**A copy from a module that has tasks waiting closes a circle**: the importer depends on
that module, and reaches it.  The order of emission exists only if there is no circle
(`idxOf_le_of_reaches`).  Hence no task that writes to the copied module is waiting, and by
`Leads.frame` the module stays as it is.

## Main statements

* `Encounter.nested`, `Encounter.reaches` — waiting tasks
* `find?_takeClause` — what a clause makes visible
* `imports_copy_finished_modules`
-/

namespace Amalgam

/-! ### Maps without repetition -/

/-- The names of a map come in order, each once. -/
def NameMap.Sorted {α : Type} (m : NameMap α) : Prop :=
  m.entries.Pairwise fun first second => first.1 < second.1

theorem NameMap.Sorted.insert {α : Type} {m : NameMap α} (sorted : m.Sorted) (name : String)
    (value : α) : (m.insert name value).Sorted := by
  obtain ⟨entries⟩ := m
  change (insertEntry name value entries).Pairwise _
  change entries.Pairwise _ at sorted
  induction entries with
  | nil => exact List.pairwise_singleton _ _
  | cons entry rest ih =>
      obtain ⟨other, old⟩ := entry
      obtain ⟨head, tail⟩ := List.pairwise_cons.mp sorted
      rw [insertEntry]
      split
      next same =>
        subst same
        exact List.pairwise_cons.mpr ⟨head, tail⟩
      next different =>
        split
        next before =>
          refine List.pairwise_cons.mpr ⟨fun later member => ?_, sorted⟩
          rcases List.mem_cons.mp member with rfl | member
          · exact before
          · exact String.lt_trans before (head later member)
        next notBefore =>
          refine List.pairwise_cons.mpr ⟨fun later member => ?_, ih tail⟩
          have inserted : later ∈ (NameMap.insert ⟨rest⟩ name value).entries := member
          rcases mem_entries_insert inserted with rfl | member
          · by_contra notAfter
            exact different (String.le_antisymm (String.not_lt.mp notAfter)
              (String.not_lt.mp notBefore))
          · exact head later member

theorem NameMap.Sorted.nodup {α : Type} {m : NameMap α} (sorted : m.Sorted) :
    (m.entries.map Prod.fst).Nodup :=
  List.pairwise_map.mpr (sorted.imp fun less => String.ne_of_lt less)

/-- Both maps of a symbol table are in order. -/
structure SymbolTable.Sorted (t : SymbolTable) : Prop where
  own : t.own.Sorted
  seen : t.seen.Sorted

theorem SymbolTable.Sorted.bindAll {t : SymbolTable} (sorted : t.Sorted)
    (pairs : List (String × String)) : (t.bindAll pairs).Sorted := by
  induction pairs generalizing t with
  | nil => exact sorted
  | cons pair rest ih => exact ih ⟨sorted.own, sorted.seen.insert pair.1 pair.2⟩

/-- No name is exported twice. -/
theorem SymbolTable.Sorted.exported_nodup {t : SymbolTable} (sorted : t.Sorted) :
    (t.exported.map Prod.fst).Nodup := by
  rw [exported, List.map_append]
  refine List.nodup_append.mpr ⟨sorted.own.nodup, ?_, ?_⟩
  · exact sorted.seen.nodup.sublist (List.filter_sublist.map _)
  · intro name declared other visible same
    obtain ⟨entry, inOwn, rfl⟩ := List.mem_map.mp declared
    obtain ⟨⟨label, q⟩, inSeen, rfl⟩ := List.mem_map.mp visible
    have hidden : t.own.contains entry.1 = true := NameMap.find?_isSome_of_mem inOwn
    have shown : (undotted label && !t.own.contains label) = true := (List.mem_filter.mp inSeen).2
    rw [show label = entry.1 from same.symm, hidden] at shown
    simp at shown

/-- **What one kind of change keeps of modules, a scan keeps**: modules are new, declare a
name, or take a clause. -/
theorem Encounter.module_induction {tree : FileTree} {entry : Path} {start : Build}
    {P : Module → Prop} (begins : ∀ i m, start.graph.module? i = some m → P m)
    (fresh : ∀ b full source, P (newModule b full source))
    (declares : ∀ m name, P m → P (m.declare name))
    (takes : ∀ m wildcard symbols form, P m → P (m.takeClause wildcard symbols form))
    {s : Moment} (now : Encounter tree entry start s) :
    ∀ i m, s.build.graph.module? i = some m → P m := by
  have opens : ∀ {b : Build} {full : Path} (source : List Char),
      b.graph.byPath? full = none → (∀ i m, b.graph.module? i = some m → P m) →
      ∀ i m, (openModule full source b).1.graph.module? i = some m → P m := by
    intro b full source new holds i m here
    rcases module?_openModule_cases new here with ⟨-, rfl⟩ | old
    · exact fresh b full source
    · exact holds i m old
  have modifies : ∀ {g : Graph} {id : Nat} {f : Module → Module}, (∀ m, P m → P (f m)) →
      (∀ i m, g.module? i = some m → P m) → ∀ i m, (g.modify id f).module? i = some m → P m := by
    intro g id f keeps holds i m here
    rcases module?_modify_cases here with ⟨rfl, old, there, rfl⟩ | ⟨-, there⟩
    · exact keeps old (holds i old there)
    · exact holds i m there
  refine Encounter.build_induction (motive := fun b => ∀ i m, b.graph.module? i = some m → P m)
    (fun entered => ?_) (fun {b b' task new} performed _ holds => ?_) now
  · rcases enter_cases entered with ⟨-, rfl, -⟩ | ⟨absent, source, -, -, rfl, -⟩
    · exact begins
    · exact opens source absent begins
  · cases performed with
    | code id path number lexed =>
        refine scanCode_induction (motive := fun b => ∀ i m, b.graph.module? i = some m → P m)
          (fun b name _ holds => ?_) (fun b b' noted holds => ?_) holds
        · cases found : b.graph.module? id with
          | none =>
              rw [declare_of_none found]
              exact holds
          | some m =>
              rw [declare_of_module found]
              exact modifies (fun m => declares m name) holds
        · rw [noted.graph]
          exact holds
    | future => exact holds
    | known => exact holds
    | listed => exact holds
    | outside => exact holds
    | revisit => exact holds
    | opened absent => exact opens _ absent holds
    | arrive c id =>
        intro i m here
        rw [Graph.module?_addName] at here
        exact holds i m here
    | bound c found =>
        rw [graph_bindModule]
        exact modifies (fun m => takes m _ _ _) holds
    | boundOutside c =>
        have noted := OnlyNotes.bindExternal c.importer c.path c.number c.form c.topLevel b
        rw [noted.graph]
        exact holds

/-! ### What a clause makes visible -/

/-- Under what alias a clause makes an exported name visible: behind the name of the
module or behind its alias, or as it is if the clause is a wildcard, the policy binds and
the name is public. -/
def ImportForm.aliasOf? (wildcard : WildcardPolicy) (name : String) : ImportForm → Option String
  | .module source => some (source ++ "." ++ name)
  | .moduleAs _ short => some (short ++ "." ++ name)
  | .wildcard _ =>
    if wildcard = .bind ∧ name.toList.head? ≠ some '_' then some name else none
  | .symbol .. | .symbolAs .. => none

theorem ImportForm.mem_importedNames {wildcard : WildcardPolicy} {symbols : SymbolTable}
    {form : ImportForm} {name q label : String} (exported : (name, q) ∈ symbols.exported)
    (visible : form.aliasOf? wildcard name = some label) :
    (label, q) ∈ importedNames wildcard symbols form := by
  cases form with
  | module source =>
      cases visible
      exact List.mem_map.mpr ⟨(name, q), exported, rfl⟩
  | moduleAs source short =>
      cases visible
      exact List.mem_map.mpr ⟨(name, q), exported, rfl⟩
  | wildcard source =>
      rw [aliasOf?] at visible
      split at visible
      next open' =>
        obtain ⟨rfl, isPublic⟩ := open'
        cases visible
        exact List.mem_filter.mpr ⟨exported, by simpa using isPublic⟩
      next => cases visible
  | symbol => cases visible
  | symbolAs => cases visible

/-- A clause gives no alias twice. -/
theorem importedNames_nodup {symbols : SymbolTable} (sorted : symbols.Sorted)
    (wildcard : WildcardPolicy) (form : ImportForm) :
    ((importedNames wildcard symbols form).map Prod.fst).Nodup := by
  have behind : ∀ first : String,
      ((symbols.exported.map fun entry => (first ++ "." ++ entry.1, entry.2)).map
        Prod.fst).Nodup := by
    intro first
    have joined : ((symbols.exported.map fun entry => (first ++ "." ++ entry.1, entry.2)).map
        Prod.fst) = (symbols.exported.map Prod.fst).map (first ++ "." ++ ·) := by
      rw [List.map_map, List.map_map]
      rfl
    rw [joined]
    refine sorted.exported_nodup.map fun name other same => ?_
    exact String.append_right_inj _ |>.mp same
  cases form with
  | module source => exact behind source
  | moduleAs source short => exact behind short
  | wildcard source =>
      cases wildcard with
      | bind => exact sorted.exported_nodup.sublist (List.filter_sublist.map _)
      | deny => exact List.nodup_nil
      | warn => exact List.nodup_nil
  | symbol source name =>
      rw [importedNames]
      cases symbols.resolve? name <;> simp
  | symbolAs source name short =>
      rw [importedNames]
      cases symbols.resolve? name <;> simp

theorem SymbolTable.find?_seen_bindAll {t : SymbolTable} {pairs : List (String × String)}
    {label q : String} (distinct : (pairs.map Prod.fst).Nodup) (member : (label, q) ∈ pairs) :
    (t.bindAll pairs).seen.find? label = some q := by
  -- later pairs leave the alias alone
  have stays : ∀ (t : SymbolTable) (rest : List (String × String)),
      label ∉ rest.map Prod.fst → (t.bindAll rest).seen.find? label = t.seen.find? label := by
    intro t rest absent
    induction rest generalizing t with
    | nil => rfl
    | cons pair rest ih =>
        rw [List.map_cons, List.mem_cons, not_or] at absent
        refine (ih (t.bind pair.1 pair.2) absent.2).trans ?_
        exact (NameMap.find?_insert t.seen pair.1 label pair.2).trans (if_neg absent.1)
  induction pairs generalizing t with
  | nil => cases member
  | cons pair rest ih =>
      rw [List.map_cons, List.nodup_cons] at distinct
      rcases List.mem_cons.mp member with rfl | member
      · refine (stays (t.bind label q) rest distinct.1).trans ?_
        exact (NameMap.find?_insert t.seen label label q).trans (if_pos rfl)
      · exact ih distinct.2 member

/-- **A clause makes visible what the module exports**, under the aliases that it gives. -/
theorem find?_takeClause {wildcard : WildcardPolicy} {symbols : SymbolTable}
    (sorted : symbols.Sorted) {form : ImportForm} (m : Module) {name q label : String}
    (exported : (name, q) ∈ symbols.exported)
    (visible : form.aliasOf? wildcard name = some label) :
    (m.takeClause wildcard symbols form).symbols.seen.find? label = some q := by
  rw [Module.symbols_takeClause]
  exact SymbolTable.find?_seen_bindAll (importedNames_nodup sorted wildcard form)
    (ImportForm.mem_importedNames exported visible)

/-- The importer after a clause was acted on. -/
theorem module?_bindModule {b : Build} {id : Nat} {m : Module} (here : b.graph.module? id = some m)
    (found : Nat) (path : Path) (number : Nat) (form : ImportForm) :
    (bindModule id found path number form b).graph.module? id =
      some (m.takeClause b.wildcard (b.symbolsOf found) form) := by
  rw [graph_bindModule, module?_modify_of id here, if_pos rfl]

/-! ### Waiting tasks -/

/-- **The tasks are nested below the module with the number**: they write to it until a
clause that led to it has arrived, from there on to the importer of that clause, and so
on. -/
def Nested : Nat → List Task → Prop
  | _, [] => True
  | id, task :: rest => (task.writes = id ∨ ∃ c, task = .arrive c id) ∧ Nested task.writes rest

theorem nested_append {id : Nat} {tasks rest : List Task} (all : ∀ task ∈ tasks, task.writes = id)
    (nested : Nested id rest) : Nested id (tasks ++ rest) := by
  induction tasks with
  | nil => exact nested
  | cons task tasks ih =>
      have first := all task List.mem_cons_self
      refine ⟨Or.inl first, ?_⟩
      rw [first]
      exact ih fun other member => all other (List.mem_cons_of_mem _ member)

/-- **A task leaves the agenda nested.** -/
theorem Performed.nested {tree : FileTree} {b b' : Build} {task : Task} {new rest : List Task}
    (performed : Performed tree b task b' new) (nested : Nested task.writes rest) :
    ∃ id, Nested id (new ++ rest) := by
  cases performed with
  | code => exact ⟨_, nested⟩
  | future => exact ⟨_, nested⟩
  | known => exact ⟨_, Or.inl rfl, nested⟩
  | listed => exact ⟨_, Or.inl rfl, nested⟩
  | outside => exact ⟨_, Or.inl rfl, nested⟩
  | revisit => exact ⟨_, Or.inl rfl, nested⟩
  | opened =>
      refine ⟨b.graph.nodes.length, ?_⟩
      rw [List.append_assoc]
      exact nested_append (fun _ => writes_fileTasks) ⟨Or.inr ⟨_, rfl⟩, nested⟩
  | arrive => exact ⟨_, Or.inl rfl, nested⟩
  | bound => exact ⟨_, nested⟩
  | boundOutside => exact ⟨_, nested⟩

/-- A task that waits in a scan that ends gets its turn. -/
theorem Leads.turn {tree : FileTree} {b last : Build} {tasks rest : List Task}
    (leads : Leads tree ⟨b, tasks ++ rest⟩ ⟨last, []⟩) :
    ∃ b', Leads tree ⟨b, tasks ++ rest⟩ ⟨b', rest⟩ := by
  generalize whole : (⟨b, tasks ++ rest⟩ : Moment) = s at leads
  induction leads using Relation.ReflTransGen.head_induction_on generalizing b tasks with
  | refl =>
      obtain ⟨-, none⟩ := Moment.mk.inj whole
      obtain ⟨-, rfl⟩ := List.append_eq_nil_iff.mp none
      exact ⟨last, .refl⟩
  | head step _ ih =>
      subst whole
      cases tasks with
      | nil => exact ⟨b, .refl⟩
      | cons task tasks =>
          cases step with
          | @perform _ b₁ _ _ new performed =>
              have same : (⟨b₁, (new ++ tasks) ++ rest⟩ : Moment) = ⟨b₁, new ++ (tasks ++ rest)⟩ := by
                rw [List.append_assoc]
              obtain ⟨b', onward⟩ := ih same
              exact ⟨b', .head (.perform performed) onward⟩

section Waiting

variable {tree : FileTree} {entry : Path} {start : Build}

theorem Encounter.onward {s s' : Moment} (now : Encounter tree entry start s)
    (leads : Leads tree s s') : Encounter tree entry start s' := by
  obtain ⟨b, id, tasks, entered, before⟩ := now
  exact ⟨b, id, tasks, entered, before.trans leads⟩

/-- **The agenda of a scan is nested.** -/
theorem Encounter.nested {s : Moment} (now : Encounter tree entry start s) :
    ∃ id, Nested id s.agenda := by
  refine Encounter.induction (motive := fun _ agenda => ∃ id, Nested id agenda)
    (fun {_ id _} entered => ?_) (fun _ done holds => ?_) now
  · rcases enter_cases entered with ⟨-, -, rfl⟩ | ⟨-, source, -, -, -, rfl⟩
    · exact ⟨id, trivial⟩
    · refine ⟨id, ?_⟩
      rw [← List.append_nil (fileTasks _ _ _)]
      exact nested_append (fun _ => writes_fileTasks) trivial
  · obtain ⟨_, _, below⟩ := holds
    exact (performed_of_perform done).nested below

/-- Tasks write to modules of the graph. -/
theorem Encounter.writes_lt {s : Moment} (now : Encounter tree entry start s) :
    ∀ task ∈ s.agenda, task.writes < s.build.graph.nodes.length := by
  refine (Encounter.invariant (Q := fun _ => True)
    (P := fun b task => task.writes < b.graph.nodes.length) (fun entered => ⟨trivial, ?_⟩)
    (fun _ done _ inside => ⟨trivial, fun next member => ?_⟩)
    (fun performed inside => inside.trans_le performed.length_le) now).2
  · rcases enter_cases entered with ⟨-, -, rfl⟩ | ⟨absent, source, -, rfl, rfl, rfl⟩
    · simp
    · intro task member
      rw [writes_fileTasks member, nodes_openModule absent, List.length_append]
      exact Nat.lt_succ_self _
  · have performed := performed_of_perform done
    rcases performed.writes_new next member with same | ⟨last, more⟩
    · rw [same]
      exact inside.trans_le performed.length_le
    · rw [last]
      exact more

end Waiting

/-! ### Dependencies of a scan that ends -/

variable {tree : FileTree} {entry : Path} {table : SearchTable} {wildcard : WildcardPolicy}
  {cycles : CyclePolicy} {diagnostics : List Diagnostic} {last : Build}

/-- **A module that copies from another depends on it**, in the end. -/
theorem Encounter.importer_depends (faithful : FaithfulNames tree entry last)
    (ends : Encounter tree entry { table, wildcard, cycles, diagnostics } ⟨last, []⟩) {b : Build}
    {c : Clause} {found : Nat} {rest : List Task}
    (now : Encounter tree entry { table, wildcard, cycles, diagnostics }
      ⟨b, .settle c (some found) :: rest⟩) :
    c.importer = found ∨ last.DependsOn c.importer found := by
  have traced := traced_start tree table wildcard cycles diagnostics
  have origins := origins_start tree entry table wildcard cycles diagnostics
  have leads : b.graph.byName? c.source = some found :=
    (Encounter.linked faithful ends (wellNamed_start table wildcard cycles diagnostics) traced
      origins (linked_start table wildcard cycles diagnostics) now).2 _ List.mem_cons_self
  have inside : c.importer < b.graph.nodes.length := now.writes_lt _ List.mem_cons_self
  obtain ⟨m, here⟩ := Option.isSome_iff_exists.mp (Graph.module?_isSome_iff.mpr inside)
  by_cases own : m.name = c.source
  · exact Or.inl (Encounter.imports_itself faithful ends traced origins now leads here own)
  · refine Or.inr (((now.next (perform_settle_some tree b c found)).leads_end ends).grows.dependsOn ?_)
    refine ⟨m.takeClause b.wildcard (b.symbolsOf found) c.form, c.source, ?_, ?_, ?_⟩
    · exact module?_bindModule here found c.path c.number c.form
    · exact Module.mem_addDependency.mpr (Or.inr ⟨Ne.symm own, rfl⟩)
    · exact (Build.Keeps.bindModule c.importer found c.path c.number c.form b).byName leads

/-- **The module of a waiting task reaches the module of the first**, in the end. -/
theorem Encounter.reaches (faithful : FaithfulNames tree entry last)
    (ends : Encounter tree entry { table, wildcard, cycles, diagnostics } ⟨last, []⟩) {b : Build}
    {done waiting : List Task} {id : Nat}
    (now : Encounter tree entry { table, wildcard, cycles, diagnostics } ⟨b, done ++ waiting⟩)
    (nested : Nested id waiting) : ∀ task ∈ waiting, last.Reaches task.writes id := by
  induction waiting generalizing done id with
  | nil => simp
  | cons first rest ih =>
      obtain ⟨head, below⟩ := nested
      have reached : last.Reaches first.writes id := by
        rcases head with same | ⟨c, rfl⟩
        · rw [same]
        · -- the clause has its turn, and is acted on then
          obtain ⟨b', turn⟩ := (now.leads_end ends).turn
          have arrived : Encounter tree entry { table, wildcard, cycles, diagnostics }
              ⟨b', .arrive c id :: rest⟩ := now.onward turn
          rcases Encounter.importer_depends faithful ends (arrived.next (perform_arrive tree b' c id)) with
            same | depends
          · rw [show (Task.arrive c id).writes = id from same]
          · exact .single depends
      intro task member
      rcases List.mem_cons.mp member with rfl | member
      · exact reached
      · rw [List.append_cons] at now
        exact (ih now below task member).trans reached

/-! ### The combined program -/

/-- In a program that could be ordered, **modules that reach each other are one**. -/
theorem Build.eq_of_reaches {b : Build} {order : EmissionOrder}
    (valid : b.graph.link.EdgesValid) (ordered : b.graph.link.order .reject = .ok order)
    {i j : Nat} (inside : i < b.graph.nodes.length) (onward : b.Reaches i j)
    (back : b.Reaches j i) : i = j := by
  obtain ⟨-, complete, -⟩ := Graph.order_ok valid ordered
  have position : i ∈ order.modules := complete i (by rw [Graph.length_nodes_link]; exact inside)
  refine (List.idxOf_inj position).mp (Nat.le_antisymm ?_ ?_)
  · exact idxOf_le_of_reaches valid ordered back
  · exact idxOf_le_of_reaches valid ordered onward

/-- Names lead to modules, so the edges of a scan do. -/
theorem Build.Traced.edgesValid {b : Build} (traced : b.Traced tree) :
    b.graph.link.EdgesValid := by
  refine Graph.edgesValid_link fun leads => ?_
  obtain ⟨m, here, -⟩ := traced.named leads
  exact Graph.module?_isSome_iff.mp (by rw [here]; rfl)

/-- **Nothing is waiting for a module that is copied from**, in a scan whose modules can be
ordered. -/
theorem Encounter.spares_found {order : EmissionOrder} (faithful : FaithfulNames tree entry last)
    (ends : Encounter tree entry { table, wildcard, cycles, diagnostics } ⟨last, []⟩)
    (ordered : last.graph.link.order .reject = .ok order) {b : Build} {c : Clause} {found : Nat}
    {rest : List Task}
    (now : Encounter tree entry { table, wildcard, cycles, diagnostics }
      ⟨b, .settle c (some found) :: rest⟩)
    (other : c.importer ≠ found) :
    ∀ task ∈ (Task.settle c (some found) :: rest), found ≠ task.writes := by
  have valid := (ends.traced (traced_start tree table wildcard cycles diagnostics)).1.edgesValid
  have inside : c.importer < last.graph.nodes.length := by
    have here : (b.graph.module? c.importer).isSome :=
      Graph.module?_isSome_iff.mpr (now.writes_lt _ List.mem_cons_self)
    obtain ⟨m, found⟩ := Option.isSome_iff_exists.mp here
    obtain ⟨m', there, -⟩ := (now.leads_end ends).grows.module found
    exact Graph.module?_isSome_iff.mp (by rw [there]; rfl)
  intro task member waits
  rcases List.mem_cons.mp member with rfl | member
  · exact other waits.symm
  · obtain ⟨_, _, below⟩ := now.nested
    have back : last.Reaches found c.importer := by
      rw [waits]
      exact Encounter.reaches faithful ends (show Encounter tree entry _
        ⟨b, [.settle c (some found)] ++ rest⟩ from now) below task member
    rcases Encounter.importer_depends faithful ends now with same | depends
    · exact other same
    · exact other (Build.eq_of_reaches valid ordered inside (.single depends) back)

/-- The symbol tables of a scan are in order. -/
theorem Encounter.sorted {s : Moment}
    (now : Encounter tree entry { table, wildcard, cycles, diagnostics } s) :
    ∀ i m, s.build.graph.module? i = some m → m.symbols.Sorted := by
  refine Encounter.module_induction (fun i m here => ?_) (fun b full source => ?_)
    (fun m name sorted => ?_) (fun m wildcard symbols form sorted => ?_) now
  · cases here
  · exact ⟨List.Pairwise.nil, List.Pairwise.nil⟩
  · exact ⟨sorted.own.insert name _, sorted.seen⟩
  · rw [Module.symbols_takeClause]
    exact sorted.bindAll _

/-- **Imports copy finished modules.**  Take any program that was combined under the
rejecting policy and in which names are faithful.  Whenever a clause copies from another
module than its own, that module is already what it is in the combined program.  So the
clause makes visible every name that the module exports in the end: all of them behind its
name or alias, or the public ones for a wildcard that binds. -/
theorem imports_copy_finished_modules {tree : FileTree} {entry : Path} {table : SearchTable}
    {wildcard : WildcardPolicy} {diagnostics : List Diagnostic} {combined : Combined}
    (built : combine tree entry { table, wildcard, cycles := .reject, diagnostics } = .ok combined)
    (faithful : FaithfulNames tree entry combined.build) {b : Build} {c : Clause} {found : Nat}
    {rest : List Task}
    (now : Encounter tree entry { table, wildcard, cycles := .reject, diagnostics }
      ⟨b, .settle c (some found) :: rest⟩)
    (other : c.importer ≠ found) :
    ∃ d m, b.graph.module? found = some d ∧ combined.build.graph.module? found = some d ∧
      (bindModule c.importer found c.path c.number c.form b).graph.module? c.importer = some m ∧
      ∀ name q label, (name, q) ∈ d.symbols.exported →
        c.form.aliasOf? wildcard name = some label → m.symbols.seen.find? label = some q := by
  obtain ⟨id, last, order, scan, ordered, graph, sameTable, -⟩ := combine_eq_ok built
  obtain ⟨b₁, tasks, entered, leads⟩ := scanPath_ok_encounter scan
  have ends : Encounter tree entry { table, wildcard, cycles := .reject, diagnostics } ⟨last, []⟩ :=
    ⟨b₁, id, tasks, entered, leads⟩
  have modules : ∀ i, combined.build.graph.module? i = last.graph.module? i := by
    intro i
    rw [graph, Graph.module?_link]
  rw [show last.cycles = .reject from ends.grows.cycles] at ordered
  have inTheEnd := faithful.congr sameTable modules
  have traced := traced_start tree table wildcard .reject diagnostics
  -- both modules are there
  have named : b.graph.byName? c.source = some found :=
    (Encounter.linked inTheEnd ends (wellNamed_start table wildcard .reject diagnostics) traced
      (origins_start tree entry table wildcard .reject diagnostics)
      (linked_start table wildcard .reject diagnostics) now).2 _ List.mem_cons_self
  obtain ⟨d, here, -⟩ := (now.traced traced).1.named named
  obtain ⟨m, importer⟩ := Option.isSome_iff_exists.mp
    (Graph.module?_isSome_iff.mpr (now.writes_lt _ List.mem_cons_self))
  have there : last.graph.module? found = some d := by
    have same := ((now.leads_end ends).frame (Graph.module?_isSome_iff.mp (by rw [here]; rfl))
      (Encounter.spares_found inTheEnd ends ordered now other)).1
    rw [Graph.module?, same]
    exact here
  refine ⟨d, m.takeClause b.wildcard (b.symbolsOf found) c.form, here, by rw [modules, there],
    module?_bindModule importer found c.path c.number c.form,
    fun name q label exported visible => ?_⟩
  have symbols : b.symbolsOf found = d.symbols := by rw [Build.symbolsOf, here]; rfl
  have policy : b.wildcard = wildcard := now.grows.wildcard
  rw [symbols, policy]
  exact find?_takeClause (now.sorted found d here) m exported visible

/-- A program in which `main` imports `util`, which takes all names of `base`. -/
def layersTree : FileTree where
  entries :=
    [(["proj"], .dir),
     (["proj", "main.py"], .file (encodeUtf8 "import util\nutil.f()\n".toList) false),
     (["proj", "util.py"],
      .file (encodeUtf8 "from base import *\ndef g():\n    pass\n".toList) false),
     (["proj", "base.py"], .file (encodeUtf8 "def f():\n    pass\n".toList) false)]
  workdir := ["proj"]

/-- What the directory `proj` offers. -/
def layersTable : SearchTable :=
  ⟨[("base", ⟨"/proj/base.py"⟩), ("main", ⟨"/proj/main.py"⟩), ("util", ⟨"/proj/util.py"⟩)]⟩

/-- `main` sees `f` as a name of `util`, to which it came from `base` before. -/
theorem imports_copy_finished_modules_layersTree :
    ∃ combined b rest m,
      combine layersTree ⟨"/proj/main.py"⟩ { table := layersTable, wildcard := .bind } =
        .ok combined ∧
      FaithfulNames layersTree ⟨"/proj/main.py"⟩ combined.build ∧
      Encounter layersTree ⟨"/proj/main.py"⟩ { table := layersTable, wildcard := .bind }
        ⟨b, .settle ⟨0, ⟨"/proj/main.py"⟩, 1, true, .module "util"⟩ (some 1) :: rest⟩ ∧
      (bindModule 0 1 ⟨"/proj/main.py"⟩ 1 (.module "util") b).graph.module? 0 = some m ∧
      m.symbols.seen.find? "util.f" = some "base.f" := by
  have computed : ∃ combined ∈ (combine layersTree ⟨"/proj/main.py"⟩
      { table := layersTable, wildcard := .bind }).toOption,
      FaithfulNames layersTree ⟨"/proj/main.py"⟩ combined.build ∧
      (combined.build.graph.module? 1).map (·.symbols.exported.contains ("f", "base.f")) =
        some true := by
    decide +kernel
  have acting : ((Moment.ofScan? layersTree ⟨"/proj/main.py"⟩
      { table := layersTable, wildcard := .bind } 11).bind (·.agenda.head?)) =
        some (.settle ⟨0, ⟨"/proj/main.py"⟩, 1, true, .module "util"⟩ (some 1)) := by
    decide +kernel
  obtain ⟨combined, given, faithful, exports⟩ := computed
  have built := eq_ok_of_mem_toOption given
  obtain ⟨b, rest, now⟩ := Moment.encounter_of_head acting
  obtain ⟨d, m, -, there, importer, visible⟩ :=
    imports_copy_finished_modules built faithful now (by decide)
  rw [there, Option.map_some, Option.some.injEq, List.contains_iff_mem] at exports
  exact ⟨combined, b, rest, m, built, faithful, now, importer,
    visible "f" "base.f" "util.f" exports rfl⟩

end Amalgam
