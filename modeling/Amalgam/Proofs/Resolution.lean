import Amalgam.Proofs.Growth

/-!
# Which module an import means

An import of a name is looked up in three places: the names that lead to modules
already, the search table, and nowhere, which makes the name one of the outside.  The
search table is meant to decide.  This module says exactly when it does.

A name begins to lead to a module on one of two occasions.  Either an import of the name
was followed to the file that the table gives for it, and then the module is the one of
that file; or a file was opened, and the module is **called** so, after its file.  The
second occasion asks the table nothing.  `Build.Traced` keeps the two apart for every
name of the graph, together with what makes a module and a file the same thing: no two
modules have the same path.

`FollowsTable` is what an import should mean at one moment, `FollowsThroughout` that it
means this at every moment of a scan, that it means the same at any two, and that no name
is on both sides.  The main result is that a scan follows the table throughout exactly
if, whenever a name is asked for that leads to a module called so, the table gives that
module's file.

## Main statements

* `Encounter.traced` — the invariant
* `imports_follow_table_iff`, and a scan that does not
-/

namespace Amalgam

/-! ### Modules and files -/

variable {tree : FileTree} {b b' start : Build} {name : String} {id : Nat} {task : Task}
  {p entry : Path}

theorem Path.same_iff {q : Path} : p.same q = true ↔ p.components = q.components := by
  rw [Path.same, beq_iff_eq]

theorem Path.same_refl (p : Path) : p.same p = true :=
  Path.same_iff.mpr rfl

/-- **The paths are in step with the modules**: they are the modules' paths, with the modules'
numbers. -/
def Graph.InStep (g : Graph) : Prop :=
  ∀ path i, (path, i) ∈ g.paths ↔ ∃ m, g.module? i = some m ∧ m.path = path

namespace Graph.InStep

variable {g : Graph} (inStep : g.InStep)

include inStep

/-- The module that a path leads to has that path. -/
theorem module?_of_byPath? (found : g.byPath? p = some id) :
    ∃ m, g.module? id = some m ∧ m.path.same p = true := by
  obtain ⟨entry, first, rfl⟩ := Option.map_eq_some_iff.mp found
  obtain ⟨m, here, path⟩ := (inStep entry.1 entry.2).mp (List.mem_of_find?_eq_some first)
  have same := List.find?_some first
  exact ⟨m, here, path ▸ same⟩

/-- A path that leads to no module is no module's path. -/
theorem not_same_of_byPath? (absent : g.byPath? p = none) {i : Nat} {m : Module}
    (here : g.module? i = some m) : m.path.same p = false := by
  have entered := (inStep m.path i).mpr ⟨m, here, rfl⟩
  rw [byPath?, Option.map_eq_none_iff, List.find?_eq_none] at absent
  exact Bool.eq_false_iff.mpr (absent _ entered)

end Graph.InStep

/-- Where the paths stay and modules only grow, they stay in step. -/
theorem Graph.InStep.keep (inStep : b.graph.InStep) (kept : b.Keeps b') : b'.graph.InStep := by
  intro path i
  rw [kept.paths, inStep path i]
  constructor
  · rintro ⟨m, here, rfl⟩
    obtain ⟨m', here', growth⟩ := kept.module here
    exact ⟨m', here', growth.path⟩
  · rintro ⟨m', here', rfl⟩
    obtain ⟨m, here, growth⟩ := kept.earlier here'
    exact ⟨m, here, growth.path.symm⟩

/-- A file that is opened gets its path entered. -/
theorem Graph.InStep.opened (inStep : b.graph.InStep) {full : Path}
    (new : b.graph.byPath? full = none) (source : List Char) :
    (openModule full source b).1.graph.InStep := by
  intro path i
  rw [paths_openModule new, List.mem_append, List.mem_singleton, inStep path i,
    module?_openModule new]
  constructor
  · rintro (⟨m, here, rfl⟩ | last)
    · have below : i < b.graph.nodes.length := Graph.module?_isSome_iff.mp (by rw [here]; rfl)
      exact ⟨m, by rw [if_neg (Nat.ne_of_lt below)]; exact here, rfl⟩
    · cases last
      exact ⟨newModule b full source, if_pos rfl, rfl⟩
  · rintro ⟨m, here, rfl⟩
    split at here
    next last =>
      cases here
      exact Or.inr (by rw [last]; rfl)
    next => exact Or.inl ⟨m, here, rfl⟩

/-- **The search table gives the module's file for the name.** -/
def Build.ListedAt (tree : FileTree) (b : Build) (name : String) (id : Nat) : Prop :=
  ∃ p m, b.table.find? name = some p ∧ b.graph.module? id = some m ∧
    m.path.same (tree.canonical p) = true

theorem Build.ListedAt.mono (listed : b.ListedAt tree name id) (grows : b.Grows b') :
    b'.ListedAt tree name id := by
  obtain ⟨p, m, given, here, same⟩ := listed
  obtain ⟨m', here', growth⟩ := grows.module here
  exact ⟨p, m', by rw [grows.table]; exact given, here', by rw [growth.path]; exact same⟩

/-! ### The invariant -/

/-- **How names lead to modules**, and modules to files. -/
structure Build.Traced (tree : FileTree) (b : Build) : Prop where
  inStep : b.graph.InStep
  visited : ∀ {name id}, b.graph.byName? name = some id → name ∈ b.visited
  named : ∀ {name id}, b.graph.byName? name = some id →
    ∃ m, b.graph.module? id = some m ∧ (m.name = name ∨ b.ListedAt tree name id)
  path_inj : ∀ {i j m n}, b.graph.module? i = some m → b.graph.module? j = some n →
    m.path.components = n.path.components → i = j
  external : ∀ {name}, name ∈ b.externals → b.table.find? name = none

/-- What a task may rely on. -/
def Task.Traced (tree : FileTree) (b : Build) : Task → Prop
  | .visit c path => b.table.find? c.source = some path ∧ c.source ∈ b.visited
  | .arrive c id => b.ListedAt tree c.source id ∧ c.source ∈ b.visited
  | .settle c none => b.table.find? c.source = none ∧ c.source ∈ b.externals
  | _ => True

theorem Task.Traced.mono (grows : b.Grows b') (traced : task.Traced tree b) :
    task.Traced tree b' := by
  match task, traced with
  | .code .., _ => trivial
  | .meet _, _ => trivial
  | .visit c path, ⟨given, visited⟩ =>
      exact ⟨by rw [grows.table]; exact given, grows.visited visited⟩
  | .arrive c id, ⟨listed, visited⟩ => exact ⟨listed.mono grows, grows.visited visited⟩
  | .settle c none, ⟨missing, outside⟩ =>
      exact ⟨by rw [grows.table]; exact missing, grows.externals outside⟩
  | .settle _ (some _), _ => trivial

/-- Modules with one file are one module. -/
theorem Build.Traced.eq_of_listedAt (traced : b.Traced tree) {i j : Nat}
    (first : b.ListedAt tree name i) (second : b.ListedAt tree name j) : i = j := by
  obtain ⟨p, m, given, here, same⟩ := first
  obtain ⟨p', n, given', there, same'⟩ := second
  rw [given] at given'
  cases given'
  exact traced.path_inj here there
    ((Path.same_iff.mp same).trans (Path.same_iff.mp same').symm)

/-- A build with the same names and outside names. -/
theorem Build.Traced.keep (traced : b.Traced tree) (kept : b.Keeps b')
    (index : b'.graph.index = b.graph.index) (externals : b'.externals = b.externals) :
    b'.Traced tree where
  inStep := traced.inStep.keep kept
  visited {name id} leads := by
    rw [Graph.byName?, index] at leads
    exact kept.visited (traced.visited leads)
  named {name id} leads := by
    rw [Graph.byName?, index] at leads
    obtain ⟨m, here, origin⟩ := traced.named leads
    obtain ⟨m', here', growth⟩ := kept.module here
    exact ⟨m', here', origin.imp growth.name.trans (·.mono kept.toGrows)⟩
  path_inj first second same := by
    obtain ⟨m, here, growth⟩ := kept.earlier first
    obtain ⟨n, there, growth'⟩ := kept.earlier second
    rw [growth.path, growth'.path] at same
    exact traced.path_inj here there same
  external outside := by
    rw [externals] at outside
    rw [kept.table]
    exact traced.external outside

/-- A name that the table does not know joins the outside. -/
theorem Build.Traced.addExternal (traced : b.Traced tree) (unlisted : b.table.find? name = none) :
    (b.addExternal name).Traced tree where
  inStep := traced.inStep
  visited := traced.visited
  named := traced.named
  path_inj := traced.path_inj
  external outside := by
    rcases mem_insertLast.mp outside with before | rfl
    · exact traced.external before
    · exact unlisted

/-- A name begins to lead to the module of the file that the table gives for it. -/
theorem Build.Traced.addName (traced : b.Traced tree) (listed : b.ListedAt tree name id)
    (visited : name ∈ b.visited) :
    ({ b with graph := b.graph.addName name id } : Build).Traced tree := by
  have kept := Build.Keeps.addName b name id
  have origin : ∀ {other j}, (b.graph.addName name id).byName? other = some j →
      b.graph.byName? other = some j ∨ other = name ∧ j = id := by
    intro other j leads
    rw [Graph.byName?_addName] at leads
    split at leads
    next same =>
      subst same
      rcases Option.or_eq_some_iff.mp leads with before | ⟨-, now⟩
      · exact Or.inl before
      · cases now
        exact Or.inr ⟨rfl, rfl⟩
    next => exact Or.inl leads
  refine ⟨traced.inStep.keep kept, ?_, ?_, ?_, traced.external⟩
  · intro other j leads
    rcases origin leads with before | ⟨rfl, rfl⟩
    · exact traced.visited before
    · exact visited
  · intro other j leads
    rcases origin leads with before | ⟨rfl, rfl⟩
    · obtain ⟨m, here, how⟩ := traced.named before
      exact ⟨m, by rw [Graph.module?_addName]; exact here, how.imp_right (·.mono kept.toGrows)⟩
    · obtain ⟨p, m, given, here, same⟩ := listed
      refine ⟨m, by rw [Graph.module?_addName]; exact here, Or.inr ?_⟩
      exact Build.ListedAt.mono ⟨p, m, given, here, same⟩ kept.toGrows
  · intro i j m n first second same
    rw [Graph.module?_addName] at first second
    exact traced.path_inj first second same

/-- A file is opened, and its module is called after it. -/
theorem Build.Traced.opened (traced : b.Traced tree) {full : Path}
    (new : b.graph.byPath? full = none) (source : List Char) :
    (openModule full source b).1.Traced tree := by
  have grows := Build.Grows.openModule new source
  have apart : ∀ {i m}, b.graph.module? i = some m → m.path.components ≠ full.components := by
    intro i m here same
    have different := traced.inStep.not_same_of_byPath? new here
    rw [Path.same_iff.mpr same] at different
    cases different
  have origin : ∀ {name id}, (openModule full source b).1.graph.byName? name = some id →
      b.graph.byName? name = some id ∨ name = moduleName full ∧ id = b.graph.nodes.length := by
    intro name id leads
    rw [byName?_openModule new] at leads
    split at leads
    next same =>
      rcases Option.or_eq_some_iff.mp leads with before | ⟨-, now⟩
      · exact Or.inl before
      · cases now
        exact Or.inr ⟨same, rfl⟩
    next => exact Or.inl leads
  refine ⟨traced.inStep.opened new source, ?_, ?_, ?_, traced.external⟩
  · intro name id leads
    rw [visited_openModule, mem_insertLast]
    rcases origin leads with before | ⟨rfl, -⟩
    · exact Or.inl (traced.visited before)
    · exact Or.inr rfl
  · intro name id leads
    rcases origin leads with before | ⟨rfl, rfl⟩
    · obtain ⟨m, here, how⟩ := traced.named before
      obtain ⟨m', here', growth⟩ := grows.module here
      exact ⟨m', here', how.imp growth.name.trans (·.mono grows)⟩
    · exact ⟨newModule b full source, by rw [module?_openModule new, if_pos rfl], Or.inl rfl⟩
  · intro i j m n first second same
    rcases module?_openModule_cases new first with ⟨firstLast, rfl⟩ | firstOld <;>
      rcases module?_openModule_cases new second with ⟨secondLast, rfl⟩ | secondOld
    · rw [firstLast, secondLast]
    · exact absurd same.symm (apart secondOld)
    · exact absurd same (apart firstOld)
    · exact traced.path_inj firstOld secondOld same

/-- The build before a scan. -/
theorem traced_start (tree : FileTree) (table : SearchTable) (wildcard : WildcardPolicy)
    (cycles : CyclePolicy) (diagnostics : List Diagnostic) :
    ({ table, wildcard, cycles, diagnostics } : Build).Traced tree where
  inStep path i := by simp
  visited leads := by cases leads
  named leads := by cases leads
  path_inj here := by simp at here
  external outside := by cases outside

/-- One task keeps the invariant. -/
theorem Performed.traced {new : List Task} (performed : Performed tree b task b' new)
    (holds : task.Traced tree b) (traced : b.Traced tree) : b'.Traced tree := by
  cases performed with
  | code id path number lexed =>
      exact traced.keep (.scanCode id path number lexed b) (index_scanCode ..)
        (sameLookup_scanCode ..).externals
  | future => exact traced.keep (.ofNotes (.addFuture b _)) rfl rfl
  | known => exact traced
  | listed => exact traced.keep (.markVisited b _) rfl rfl
  | outside asks unknown unlisted => exact traced.addExternal unlisted
  | revisit => exact traced
  | opened absent => exact traced.opened absent _
  | arrive c id => exact traced.addName holds.1 holds.2
  | bound c found =>
      exact traced.keep (.bindModule _ found _ _ _ b) (by rw [graph_bindModule]; rfl)
        (sameLookup_bindModule ..).externals
  | boundOutside c =>
      have noted := OnlyNotes.bindExternal c.importer c.path c.number c.form c.topLevel b
      exact traced.keep (.ofNotes noted) (by rw [noted.graph]) noted.externals

/-- What a task relies on, the tasks before it have brought about. -/
theorem Performed.traced_new {new : List Task} (performed : Performed tree b task b' new)
    (holds : task.Traced tree b) (traced : b.Traced tree) :
    ∀ next ∈ new, next.Traced tree b' := by
  intro next member
  cases performed with
  | code => cases member
  | future => cases member
  | known =>
      rw [List.mem_singleton.mp member]
      trivial
  | listed asks unknown listed =>
      rw [List.mem_singleton.mp member]
      exact ⟨listed, mem_insertLast.mpr (Or.inr rfl)⟩
  | outside asks unknown unlisted =>
      rw [List.mem_singleton.mp member]
      exact ⟨unlisted, mem_insertLast.mpr (Or.inr rfl)⟩
  | revisit there =>
      rw [List.mem_singleton.mp member]
      obtain ⟨m, here, same⟩ := traced.inStep.module?_of_byPath? there
      exact ⟨⟨_, m, holds.1, here, same⟩, holds.2⟩
  | @opened c path source absent read =>
      rcases List.mem_append.mp member with ofFile | last
      · exact forall_mem_fileTasks (P := Task.Traced tree _) (fun _ _ => trivial)
          (fun _ => trivial) next ofFile
      · rw [List.mem_singleton.mp last]
        have here : (openModule (tree.canonical path) source b).1.graph.module?
            b.graph.nodes.length = some (newModule b (tree.canonical path) source) := by
          rw [module?_openModule absent, if_pos rfl]
        refine ⟨⟨path, _, holds.1, here, Path.same_refl _⟩, ?_⟩
        exact (Build.Grows.openModule absent source).visited holds.2
  | arrive c id =>
      rw [List.mem_singleton.mp member]
      trivial
  | bound => cases member
  | boundOutside => cases member

/-- **How names lead to modules at every moment of a scan.** -/
theorem Encounter.traced (begins : start.Traced tree) {s : Moment}
    (now : Encounter tree entry start s) :
    s.build.Traced tree ∧ ∀ task ∈ s.agenda, task.Traced tree s.build := by
  refine Encounter.invariant (fun entered => ?_) (fun _ done traced holds => ?_)
    (fun performed waits => waits.mono performed.grows) now
  · rcases enter_cases entered with ⟨-, rfl, rfl⟩ | ⟨absent, source, -, rfl, rfl, rfl⟩
    · exact ⟨begins, by simp⟩
    · exact ⟨begins.opened absent source,
        forall_mem_fileTasks (fun _ _ => trivial) (fun _ => trivial)⟩
  · have performed := performed_of_perform done
    exact ⟨performed.traced holds traced, performed.traced_new holds traced⟩

/-! ### Following the table -/

/-- **An import means what the search table says**: the module of the file that the table
gives for the name; or, if it gives none, no module, and the name is on record as one of
the outside. -/
def Build.FollowsTable (tree : FileTree) (b : Build) (name : String) (found : Option Nat) : Prop :=
  match b.table.find? name with
  | some p => ∃ id m, found = some id ∧ b.graph.module? id = some m ∧
      m.path.same (tree.canonical p) = true
  | none => found = none ∧ name ∈ b.externals

theorem Build.followsTable_some :
    b.FollowsTable tree name (some id) ↔ b.ListedAt tree name id := by
  unfold FollowsTable ListedAt
  cases b.table.find? name with
  | none => simp
  | some p => simp

/-- **Imports follow the search table all through a scan.**  An import is met when its
clause comes up and has its meaning when the scan acts on it. -/
structure FollowsThroughout (tree : FileTree) (entry : Path) (start : Build) : Prop where
  /-- Each import means what the table says. -/
  table : ∀ {b c found rest}, Encounter tree entry start ⟨b, .settle c found :: rest⟩ →
    b.FollowsTable tree c.source found
  /-- Imports of one name mean one thing. -/
  agree : ∀ {b b' c c' found found' rest rest'},
    Encounter tree entry start ⟨b, .settle c found :: rest⟩ →
    Encounter tree entry start ⟨b', .settle c' found' :: rest'⟩ →
    c.source = c'.source → found = found'
  /-- No name that means a module is ever on record as one of the outside. -/
  apart : ∀ {b c id rest s}, Encounter tree entry start ⟨b, .settle c (some id) :: rest⟩ →
    Encounter tree entry start s → c.source ∉ s.build.externals

/-- **Names that modules are called by are names of their files.**  Whenever a clause
asks for a name that leads to a module called so, the table gives that module's file. -/
def CalledAsListed (tree : FileTree) (entry : Path) (start : Build) : Prop :=
  ∀ b c rest, Encounter tree entry start ⟨b, .meet c :: rest⟩ → c.Asks b →
    ∀ id m, b.graph.byName? c.source = some id → b.graph.module? id = some m →
      m.name = c.source → b.ListedAt tree c.source id

/-- A name that leads to a module is known. -/
theorem Build.Traced.knownModule? {b : Build} (traced : b.Traced tree) {name : String} {id : Nat}
    (leads : b.graph.byName? name = some id) : knownModule? b name = some id := by
  rw [Amalgam.knownModule?, if_pos (List.contains_iff_mem.mpr (traced.visited leads))]
  exact leads

theorem byName?_of_knownModule? {b : Build} {name : String} {id : Nat}
    (known : knownModule? b name = some id) : b.graph.byName? name = some id := by
  unfold knownModule? at known
  split at known
  · exact known
  · cases known

/-- What a scan acts on follows the table, if modules are called as they are listed. -/
theorem CalledAsListed.finds (called : CalledAsListed tree entry start)
    (begins : start.Traced tree) {s : Moment} (now : Encounter tree entry start s) :
    ∀ task ∈ s.agenda, task.Finds (s.build.ListedAt tree) := by
  refine (Encounter.invariant (Q := fun _ => True)
    (P := fun b task => task.Finds (b.ListedAt tree)) (fun entered => ⟨trivial, ?_⟩)
    (fun {b b' task rest new} moment done _ _ => ⟨trivial, ?_⟩)
    (fun performed waits => waits.mono fun _ _ listed => listed.mono performed.grows) now).2
  · rcases enter_cases entered with ⟨-, -, rfl⟩ | ⟨-, source, -, -, -, rfl⟩
    · simp
    · exact forall_mem_fileTasks (fun _ _ => trivial) (fun _ => trivial)
  · have traced := moment.traced begins
    refine (performed_of_perform done).finds_new (fun {c id} isMeet same asks known => ?_)
      (fun {c id} isArrival after => ?_)
    · subst isMeet same
      have leads := byName?_of_knownModule? known
      obtain ⟨m, here, own | listed⟩ := traced.1.named leads
      · exact called _ c rest moment asks id m leads here own
      · exact listed
    · subst isArrival after
      have listed := (traced.2 _ List.mem_cons_self).1
      exact listed.mono (Build.Keeps.addName b _ _).toGrows

/-- From the table to the whole scan. -/
theorem CalledAsListed.followsThroughout (called : CalledAsListed tree entry start)
    (begins : start.Traced tree) : FollowsThroughout tree entry start := by
  have follows : ∀ {b c found rest}, Encounter tree entry start ⟨b, .settle c found :: rest⟩ →
      b.FollowsTable tree c.source found := by
    intro b c found rest now
    cases found with
    | some id =>
        exact Build.followsTable_some.mpr (called.finds begins now _ List.mem_cons_self)
    | none =>
        obtain ⟨missing, outside⟩ := (now.traced begins).2 _ List.mem_cons_self
        rw [Build.FollowsTable, missing]
        exact ⟨rfl, outside⟩
  refine ⟨follows, ?_, ?_⟩
  · intro b b' c c' found found' rest rest' now now' same
    have meaning := follows now
    have meaning' := follows now'
    cases listed : start.table.find? c.source with
    | none =>
        rw [Build.FollowsTable, now.grows.table, listed] at meaning
        rw [Build.FollowsTable, now'.grows.table, ← same, listed] at meaning'
        rw [meaning.1, meaning'.1]
    | some p =>
        rw [Build.FollowsTable, now.grows.table, listed] at meaning
        rw [Build.FollowsTable, now'.grows.table, ← same, listed] at meaning'
        obtain ⟨id, m, rfl, here, path⟩ := meaning
        obtain ⟨id', m', rfl, here', path'⟩ := meaning'
        have given : b.ListedAt tree c.source id :=
          ⟨p, m, by rw [now.grows.table]; exact listed, here, path⟩
        have given' : b'.ListedAt tree c.source id' :=
          ⟨p, m', by rw [now'.grows.table]; exact listed, here', path'⟩
        -- both modules are in the later of the two builds
        rcases now.total now' with onward | back
        · rw [(now'.traced begins).1.eq_of_listedAt (given.mono onward.grows) given']
        · rw [(now.traced begins).1.eq_of_listedAt given (given'.mono back.grows)]
  · intro b c id rest s now then' outside
    obtain ⟨p, m, given, -, -⟩ := Build.followsTable_some.mp (follows now)
    have missing := (then'.traced begins).1.external outside
    rw [then'.grows.table, ← now.grows.table, given] at missing
    cases missing

/-- **When imports follow the search table.**  For every file tree, entry, search table
and policy, they do so all through the scan exactly if modules are called as they are
listed: the only way to miss the table is a name that leads to a module because its file
is called so. -/
theorem imports_follow_table_iff (tree : FileTree) (entry : Path) (table : SearchTable)
    (wildcard : WildcardPolicy) (cycles : CyclePolicy) (diagnostics : List Diagnostic) :
    FollowsThroughout tree entry { table, wildcard, cycles, diagnostics } ↔
      CalledAsListed tree entry { table, wildcard, cycles, diagnostics } := by
  have begins := traced_start tree table wildcard cycles diagnostics
  constructor
  · intro follows b c rest now asks id m leads here own
    have known := (now.traced begins).1.knownModule? leads
    have acted := now.next (perform_meet_known asks known)
    exact Build.followsTable_some.mp (follows.table acted)
  · intro called
    exact called.followsThroughout begins

/-! ### A scan that misses the table -/

/-- The moment after so many tasks; a task that fails is not left behind. -/
def Moment.after (tree : FileTree) : Nat → Moment → Moment
  | n + 1, ⟨b, task :: rest⟩ =>
    match task.perform tree b with
    | .ok (b', new) => after tree n ⟨b', new ++ rest⟩
    | .error _ => ⟨b, task :: rest⟩
  | _, s => s

theorem Moment.leads_after (tree : FileTree) (n : Nat) (s : Moment) :
    Leads tree s (s.after tree n) := by
  fun_induction Moment.after tree n s with
  | case1 n b task rest b' new performed ih => exact .head (.perform performed) ih
  | case2 => exact .refl
  | case3 => exact .refl

/-- The moment of a scan after so many tasks; none if the entry cannot be opened. -/
def Moment.ofScan? (tree : FileTree) (entry : Path) (start : Build) (n : Nat) : Option Moment :=
  match enter tree entry start with
  | .ok (b, _, tasks) => some (Moment.after tree n ⟨b, tasks⟩)
  | .error _ => none

/-- A moment of a scan is come to. -/
theorem Moment.encounter_of_ofScan? {n : Nat} {s : Moment}
    (computed : ofScan? tree entry start n = some s) :
    Encounter tree entry start s := by
  unfold ofScan? at computed
  split at computed
  next b id tasks entered =>
    cases computed
    exact ⟨b, id, tasks, entered, leads_after tree n ⟨b, tasks⟩⟩
  next => cases computed

/-- The first task of a moment of a scan is come to. -/
theorem Moment.encounter_of_head {n : Nat}
    (head : ((ofScan? tree entry start n).bind (·.agenda.head?)) = some task) :
    ∃ b rest, Encounter tree entry start ⟨b, task :: rest⟩ := by
  obtain ⟨s, computed, first⟩ := Option.bind_eq_some_iff.mp head
  obtain ⟨rest, agenda⟩ := List.head?_eq_some_iff.mp first
  refine ⟨s.build, rest, ?_⟩
  rw [← agenda]
  exact encounter_of_ofScan? computed

/-- In the directory `proj`, `link.py` is a link to `shared/real.py`, and `main.py` imports
`real` before and after it imports `link`. -/
def linkedTree : FileTree where
  entries :=
    [(["proj"], .dir),
     (["proj", "main.py"],
      .file (encodeUtf8 "import real\nimport link\nimport real\n".toList) false),
     (["proj", "shared"], .dir),
     (["proj", "shared", "real.py"], .file (encodeUtf8 "x = 1\n".toList) false),
     (["proj", "link.py"], .link "shared/real.py")]
  workdir := ["proj"]

/-- What the directory `proj` offers. -/
def linkedTable : SearchTable :=
  ⟨[("link", ⟨"/proj/shared/real.py"⟩), ("main", ⟨"/proj/main.py"⟩)]⟩

/-- **A name can be outside at one import and a module at the next.**  The table does not
know `real`, so its first import is outside the program; following `link` opens a file
called `real`, and the second import of `real` means its module. -/
theorem not_followsThroughout_linkedTree :
    ¬ FollowsThroughout linkedTree ⟨"/proj/main.py"⟩ { table := linkedTable } := by
  intro follows
  have outside : ((Moment.ofScan? linkedTree ⟨"/proj/main.py"⟩ { table := linkedTable } 1).bind
      (·.agenda.head?)) =
        some (.settle ⟨0, ⟨"/proj/main.py"⟩, 1, true, .module "real"⟩ none) := by
    decide +kernel
  have inside : ((Moment.ofScan? linkedTree ⟨"/proj/main.py"⟩ { table := linkedTable } 8).bind
      (·.agenda.head?)) =
        some (.settle ⟨0, ⟨"/proj/main.py"⟩, 3, true, .module "real"⟩ (some 1)) := by
    decide +kernel
  obtain ⟨b, rest, first⟩ := Moment.encounter_of_head outside
  obtain ⟨b', rest', second⟩ := Moment.encounter_of_head inside
  cases follows.agree first second rfl

end Amalgam
