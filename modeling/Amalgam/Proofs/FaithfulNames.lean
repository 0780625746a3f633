import Amalgam.Proofs.Resolution

/-!
# Faithful names

A module is called after its file, and it is imported under a name of the search table.
Names are **faithful** in a build if the two agree wherever it matters: a file that the
table gives for an imported name is called by that name, and if the entry's own name is
imported, the table gives the entry for it.  An index of directories without links gives
such tables, except for a package beside an entry of its name.

Faithfulness is a condition on the finished build alone, its table and the texts of its
modules, and it can be computed.  That it bears on every moment of the scan is shown
here: an import that a scan meets is one of the texts (`Task.Grounded`), and a module is
the entry's or was opened for such an import (`Build.Origins`).  So a module whose own
name is imported is the one that the table gives for it, and the index of names and the
table agree on what is imported.

## Main statements

* `Encounter.grounded` — the invariant
* `FaithfulNames.listedAt`, `FaithfulNames.listedAt_of_byName?`
-/

namespace Amalgam

/-! ### Imports of a text -/

/-- The names that a module imports from, directives apart. -/
def Module.importSources (m : Module) : List String :=
  (statements m.source.toList).flatMap fun
    | .imports _ _ forms _ => (forms.filter (!·.isFuture)).map ImportForm.source
    | .code .. => []

/-- The names that the modules of a build import from. -/
def Build.importSources (b : Build) : List String :=
  b.graph.nodes.flatMap fun node => node.module.importSources

theorem Build.mem_importSources {b : Build} {name : String} :
    name ∈ b.importSources ↔
      ∃ i m, b.graph.module? i = some m ∧ name ∈ m.importSources := by
  constructor
  · intro member
    obtain ⟨node, inGraph, imported⟩ := List.mem_flatMap.mp member
    obtain ⟨i, here⟩ := List.mem_iff_getElem?.mp inGraph
    exact ⟨i, node.module, by rw [Graph.module?, here]; rfl, imported⟩
  · rintro ⟨i, m, here, imported⟩
    obtain ⟨node, there, rfl⟩ := Option.map_eq_some_iff.mp here
    exact List.mem_flatMap.mpr ⟨node, List.mem_of_getElem? there, imported⟩

/-- Imports stay, since the texts do. -/
theorem Build.Grows.importSources {b b' : Build} (grows : b.Grows b') :
    b.importSources ⊆ b'.importSources := by
  intro name member
  obtain ⟨i, m, here, imported⟩ := mem_importSources.mp member
  obtain ⟨m', here', growth⟩ := grows.module here
  refine mem_importSources.mpr ⟨i, m', here', ?_⟩
  rw [Module.importSources, growth.source]
  exact imported

/-- **Names are faithful.** -/
structure FaithfulNames (tree : FileTree) (entry : Path) (b : Build) : Prop where
  /-- A file that the table gives for an imported name is called by that name. -/
  listed : ∀ name ∈ b.importSources, ∀ p ∈ b.table.find? name, moduleName (tree.canonical p) = name
  /-- The table gives the entry for the entry's own name, if that is imported. -/
  entry : moduleName (tree.canonical entry) ∈ b.importSources →
    ∃ p ∈ b.table.find? (moduleName (tree.canonical entry)),
      (tree.canonical p).same (tree.canonical entry) = true

instance (tree : FileTree) (entry : Path) (b : Build) : Decidable (FaithfulNames tree entry b) :=
  decidable_of_iff
    ((∀ name ∈ b.importSources, ∀ p ∈ b.table.find? name, moduleName (tree.canonical p) = name) ∧
      (moduleName (tree.canonical entry) ∈ b.importSources →
        ∃ p ∈ b.table.find? (moduleName (tree.canonical entry)),
          (tree.canonical p).same (tree.canonical entry) = true))
    ⟨fun both => ⟨both.1, both.2⟩, fun faithful => ⟨faithful.listed, faithful.entry⟩⟩

/-! ### Where modules and tasks come from -/

/-- **Where modules come from**: they are called after their files, and their files are
the entry or were given by the table for an imported name. -/
structure Build.Origins (tree : FileTree) (entry : Path) (b : Build) : Prop where
  called : ∀ {i m}, b.graph.module? i = some m → m.name = moduleName m.path
  origin : ∀ {i m}, b.graph.module? i = some m → m.path = tree.canonical entry ∨
    ∃ name p, name ∈ b.importSources ∧ b.table.find? name = some p ∧ m.path = tree.canonical p

/-- The task stems from an import of some module's text. -/
def Task.Grounded (b : Build) : Task → Prop
  | .code .. => True
  | .meet c => c.form.isFuture = false → c.source ∈ b.importSources
  | .visit c _ | .arrive c _ | .settle c _ => c.source ∈ b.importSources

theorem Task.Grounded.mono {b b' : Build} (grows : b.Grows b') {task : Task}
    (grounded : task.Grounded b) : task.Grounded b' := by
  cases task with
  | code => trivial
  | meet c => exact fun ordinary => grows.importSources (grounded ordinary)
  | visit => exact grows.importSources grounded
  | arrive => exact grows.importSources grounded
  | settle => exact grows.importSources grounded

variable {tree : FileTree} {entry : Path} {b b' : Build}

theorem Build.Origins.keep (origins : b.Origins tree entry) (kept : b.Keeps b') :
    b'.Origins tree entry where
  called here := by
    obtain ⟨m, there, growth⟩ := kept.earlier here
    rw [growth.name, growth.path]
    exact origins.called there
  origin here := by
    obtain ⟨m, there, growth⟩ := kept.earlier here
    rw [growth.path]
    refine (origins.origin there).imp_right ?_
    rintro ⟨name, p, imported, given, path⟩
    exact ⟨name, p, kept.importSources imported, by rw [kept.table]; exact given, path⟩

/-- A file that is opened is the entry, or was given by the table. -/
theorem Build.Origins.opened (origins : b.Origins tree entry) {full : Path}
    (new : b.graph.byPath? full = none) (source : List Char) (origin : full = tree.canonical entry ∨
      ∃ name p, name ∈ b.importSources ∧ b.table.find? name = some p ∧ full = tree.canonical p) :
    (openModule full source b).1.Origins tree entry := by
  have grows := Build.Grows.openModule new source
  refine ⟨fun here => ?_, fun {i m} here => ?_⟩
  · rcases module?_openModule_cases new here with ⟨-, rfl⟩ | old
    · rfl
    · exact origins.called old
  · have from' : m.path = tree.canonical entry ∨ ∃ name p, name ∈ b.importSources ∧
        b.table.find? name = some p ∧ m.path = tree.canonical p := by
      rcases module?_openModule_cases new here with ⟨-, rfl⟩ | old
      · exact origin
      · exact origins.origin old
    refine from'.imp_right ?_
    rintro ⟨name, p, imported, given, path⟩
    exact ⟨name, p, grows.importSources imported, given, path⟩

/-- The clauses of a file are imports of its text. -/
theorem fileTasks_grounded {b : Build} {full : Path} (new : b.graph.byPath? full = none)
    (source : List Char) :
    ∀ task ∈ fileTasks b.graph.nodes.length full source,
      task.Grounded (openModule full source b).1 := by
  intro task member
  rcases mem_fileTasks member with
    ⟨_, _, _, -, rfl⟩ | ⟨number, lines, forms, topLevel, form, inFile, inForms, rfl⟩
  · trivial
  · intro ordinary
    refine Build.mem_importSources.mpr ⟨b.graph.nodes.length, newModule b full source, ?_, ?_⟩
    · rw [module?_openModule new, if_pos rfl]
    · rw [Module.importSources, newModule, String.toList_ofList]
      refine List.mem_flatMap.mpr ⟨_, inFile, List.mem_map.mpr ⟨form, ?_, rfl⟩⟩
      exact List.mem_filter.mpr ⟨inForms, by rw [show form.isFuture = false from ordinary]; rfl⟩

/-- Tasks stem from the tasks before them. -/
theorem Performed.grounded_new {task : Task} {new : List Task}
    (performed : Performed tree b task b' new) (grounded : task.Grounded b) :
    ∀ next ∈ new, next.Grounded b' := by
  intro next member
  cases performed with
  | code => cases member
  | future => cases member
  | known asks =>
      rw [List.mem_singleton.mp member]
      exact grounded asks.ordinary
  | listed asks =>
      rw [List.mem_singleton.mp member]
      exact grounded asks.ordinary
  | outside asks =>
      rw [List.mem_singleton.mp member]
      exact grounded asks.ordinary
  | revisit =>
      rw [List.mem_singleton.mp member]
      exact grounded
  | @opened c path source absent read =>
      rcases List.mem_append.mp member with ofFile | last
      · exact fileTasks_grounded absent source next ofFile
      · rw [List.mem_singleton.mp last]
        exact (Build.Grows.openModule absent source).importSources grounded
  | arrive c id =>
      rw [List.mem_singleton.mp member]
      exact (Build.Keeps.addName b _ _).importSources grounded
  | bound => cases member
  | boundOutside => cases member

section Scan

variable {start : Build}

/-- **Where the modules and tasks of a scan come from.** -/
theorem Encounter.grounded (traced : start.Traced tree) (begins : start.Origins tree entry)
    {s : Moment} (now : Encounter tree entry start s) :
    s.build.Origins tree entry ∧ ∀ task ∈ s.agenda, task.Grounded s.build := by
  refine Encounter.invariant (fun entered => ?_)
    (fun {b b' task rest new} moment done origins holds => ?_)
    (fun performed waits => waits.mono performed.grows) now
  · rcases enter_cases entered with ⟨-, rfl, rfl⟩ | ⟨absent, source, -, rfl, rfl, rfl⟩
    · exact ⟨begins, by simp⟩
    · exact ⟨begins.opened absent source (Or.inl rfl), fileTasks_grounded absent source⟩
  · have performed := performed_of_perform done
    refine ⟨?_, performed.grounded_new holds⟩
    rcases performed.keeps_or_opened with kept | ⟨c, path, source, rfl, absent, rfl⟩
    · exact origins.keep kept
    · have given := ((moment.traced traced).2 _ List.mem_cons_self).1
      exact origins.opened absent source (Or.inr ⟨c.source, path, holds, given, rfl⟩)

theorem origins_start (tree : FileTree) (entry : Path) (table : SearchTable)
    (wildcard : WildcardPolicy) (cycles : CyclePolicy) (diagnostics : List Diagnostic) :
    ({ table, wildcard, cycles, diagnostics } : Build).Origins tree entry where
  called here := by simp at here
  origin here := by simp at here

/-! ### What faithful names give -/

/-- **A module whose own name is imported is the one that the table gives for it.** -/
theorem FaithfulNames.listedAt {b last : Build} (faithful : FaithfulNames tree entry last)
    (grows : b.Grows last) (origins : b.Origins tree entry) {i : Nat} {m : Module}
    (here : b.graph.module? i = some m) (imported : m.name ∈ last.importSources) :
    b.ListedAt tree m.name i := by
  have called := origins.called here
  rcases origins.origin here with path | ⟨name, p, inText, given, path⟩
  -- the entry is called by its own name, any other module by the name it was imported under
  · have own : m.name = moduleName (tree.canonical entry) := by rw [called, path]
    rw [own] at imported ⊢
    obtain ⟨p, given, same⟩ := faithful.entry imported
    rw [grows.table] at given
    refine ⟨p, m, given, here, ?_⟩
    rw [path, Path.same_iff]
    exact (Path.same_iff.mp same).symm
  · have listed : moduleName (tree.canonical p) = name :=
      faithful.listed name (grows.importSources inText) p (by rw [grows.table]; exact given)
    have own : m.name = name := by rw [called, path, listed]
    rw [own]
    exact ⟨p, m, given, here, by rw [path]; exact Path.same_refl _⟩

/-- **With faithful names, a name that is imported leads where the table says.** -/
theorem FaithfulNames.listedAt_of_byName? {b last : Build}
    (faithful : FaithfulNames tree entry last) (grows : b.Grows last) (traced : b.Traced tree)
    (origins : b.Origins tree entry) {name : String} (imported : name ∈ last.importSources)
    {id : Nat} (leads : b.graph.byName? name = some id) : b.ListedAt tree name id := by
  obtain ⟨m, here, own | listed⟩ := traced.named leads
  · rw [← own] at imported ⊢
    exact faithful.listedAt grows origins here imported
  · exact listed

end Scan

end Amalgam
