import Amalgam.Proofs.DefinitionOrder

/-!
# A scan ends, and reads each file once

`scanFile` takes a bound on the nesting of files and would fail if it were reached.  The
agenda of `Amalgam.Proofs.Agenda` has no such bound, so what has to be shown is that the
bound is never the reason for a fault.

A nested scan is always that of a file of the search table.  Such a file is in the graph
already, and then the nested scan does nothing, or it joins the graph before its own
imports are followed.  So the number of files of the table that are not in the graph
(`unread`) is smaller at each level, and one level more than there are files in the table
is enough for all but the entry, which may be a file that the table does not list.

`Ended` says how a scan ends in terms of the agenda alone: it is emptied, or its first
task fails.  The end is unique because a step is a function of the moment, hence the
outcome of a scan is the same for every sufficient bound.

A file is **read** when it is visited and not in the graph.  After that it is in the graph
for good, so there is no second time.

## Main statements

* `scanFile_ended` — a scan with enough levels ends as the agenda does
* `Moment.Reads.once` — what was read is not read again
* `Encounter.consistent` — paths, names and dependencies lead to modules
* `scan_ends_reading_once`
-/

namespace Amalgam

variable {tree : FileTree}

/-! ### Files that are still to be read -/

theorem Graph.byPath?_congr (g : Graph) {p q : Path} (same : p.same q = true) :
    g.byPath? p = g.byPath? q := by
  have equal : ∀ r : Path, r.same p = r.same q := by
    intro r
    rw [Path.same, Path.same, Path.same_iff.mp same]
  simp only [byPath?, equal]

/-- A file that is in the graph stays there. -/
theorem Build.Grows.byPath?_isSome {b b' : Build} (grows : b.Grows b') {p : Path}
    (there : (b.graph.byPath? p).isSome) : (b'.graph.byPath? p).isSome := by
  obtain ⟨id, found⟩ := Option.isSome_iff_exists.mp there
  rw [grows.byPath found]
  rfl

/-- A file that was opened is in the graph. -/
theorem byPath?_openModule {b : Build} {full : Path} (new : b.graph.byPath? full = none)
    (source : List Char) : ((openModule full source b).1.graph.byPath? full).isSome := by
  rw [Graph.byPath?, Option.isSome_map, List.find?_isSome, paths_openModule new]
  exact ⟨_, List.mem_append_right _ List.mem_cons_self, Path.same_refl full⟩

/-- How many files of the search table are not in the graph. -/
def unread (tree : FileTree) (b : Build) : Nat :=
  b.table.entries.countP fun entry => (b.graph.byPath? (tree.canonical entry.2)).isNone

theorem unread_le_length (tree : FileTree) (b : Build) : unread tree b ≤ b.table.entries.length :=
  List.countP_le_length

theorem unread_le {b b' : Build} (grows : b.Grows b') : unread tree b' ≤ unread tree b := by
  rw [unread, unread, grows.table]
  refine List.countP_mono_left fun entry _ absent => ?_
  rw [Option.isNone_iff_eq_none, ← Option.not_isSome_iff_eq_none] at absent ⊢
  exact fun there => absent (grows.byPath?_isSome there)

theorem countP_lt_countP {α : Type} {p q : α → Bool} {xs : List α}
    (weaker : ∀ x ∈ xs, p x = true → q x = true) {x : α} (member : x ∈ xs) (holds : q x = true)
    (fails : p x = false) : xs.countP p < xs.countP q := by
  obtain ⟨before, after, rfl⟩ := List.append_of_mem member
  have first : before.countP p ≤ before.countP q :=
    List.countP_mono_left fun y inside => weaker y (List.mem_append_left _ inside)
  have last : after.countP p ≤ after.countP q :=
    List.countP_mono_left fun y inside =>
      weaker y (List.mem_append_right _ (List.mem_cons_of_mem _ inside))
  simp only [List.countP_append, List.countP_cons, holds, fails]
  simp only [if_true, Bool.false_eq_true, if_false]
  omega

/-- Reading a file of the table leaves fewer to read. -/
theorem unread_openModule_lt {b : Build} {name : String} {given : Path}
    (listed : b.table.find? name = some given)
    (new : b.graph.byPath? (tree.canonical given) = none) (source : List Char) :
    unread tree (openModule (tree.canonical given) source b).1 < unread tree b := by
  have grows := Build.Grows.openModule new source
  rw [unread, unread, grows.table]
  refine countP_lt_countP (fun entry _ absent => ?_) (NameMap.mem_entries_of_find? listed)
    (by rw [new]; rfl) ?_
  · rw [Option.isNone_iff_eq_none, ← Option.not_isSome_iff_eq_none] at absent ⊢
    exact fun there => absent (grows.byPath?_isSome there)
  · rw [Option.isNone_eq_false_iff]
    exact byPath?_openModule new source

/-! ### Faults come from tasks -/

/-- The agenda comes to a task that fails. -/
def Fails (tree : FileTree) (s : Moment) (fault : Fault) (b : Build) : Prop :=
  ∃ task left, Leads tree s ⟨b, task :: left⟩ ∧ task.perform tree b = .error fault

theorem Fails.head {s s' : Moment} {fault : Fault} {b : Build} (leads : Leads tree s s')
    (fails : Fails tree s' fault b) : Fails tree s fault b := by
  obtain ⟨task, left, onward, failed⟩ := fails
  exact ⟨task, left, leads.trans onward, failed⟩

/-- A computation that fails from a suitable build does so because a task fails. -/
def Halts (tree : FileTree) (suitable : Build → Prop) (scan : Scan Unit) (tasks : List Task) :
    Prop :=
  ∀ b, suitable b → ∀ fault b', scan.outcome b = (.error fault, b') →
    ∀ rest, Fails tree ⟨b, tasks ++ rest⟩ fault b'

/-- The same for the scan of a file, which may also fail to open it. -/
def HaltsAt (tree : FileTree) (suitable : Build → Prop) (scan : Scan Nat) (given : Path) : Prop :=
  ∀ b, suitable b → ∀ fault b', scan.outcome b = (.error fault, b') →
    (enter tree given b = .error fault ∧ b' = b) ∨
      ∃ b₁ id tasks, enter tree given b = .ok (b₁, id, tasks) ∧
        ∀ rest, Fails tree ⟨b₁, tasks ++ rest⟩ fault b'

section Halting

variable {suitable : Build → Prop}
  (lasting : ∀ {b b' : Build}, b.Grows b' → suitable b → suitable b')

include lasting

/-- Tasks that are done one after the other. -/
theorem Halts.append {first second : Scan Unit} {tasks later : List Task}
    (performs : Performs tree first tasks) (halts : Halts tree suitable first tasks)
    (then' : Halts tree suitable second later) :
    Halts tree suitable (first >>= fun _ => second) (tasks ++ later) := by
  intro b holds fault b' ended rest
  rw [Scan.outcome_bind] at ended
  rw [List.append_assoc]
  rcases run : first.outcome b with ⟨fault' | ⟨⟩, b₁⟩
  · rw [run] at ended
    cases ended
    exact halts b holds _ _ run (later ++ rest)
  · rw [run] at ended
    have leads := (performs b).1 b₁ run (later ++ rest)
    exact (then' b₁ (lasting leads.grows holds) fault b' ended rest).head leads

theorem halts_forM {α : Type} {f : α → Scan Unit} {tasks : α → List Task} {xs : List α}
    (performs : ∀ x ∈ xs, Performs tree (f x) (tasks x))
    (halts : ∀ x ∈ xs, Halts tree suitable (f x) (tasks x)) :
    Halts tree suitable (xs.forM f) (xs.flatMap tasks) := by
  induction xs with
  | nil =>
      intro b _ fault b' ended
      cases ended
  | cons x xs ih =>
      rw [List.forM_eq_forM, List.forM_cons, List.flatMap_cons]
      refine Halts.append lasting (performs x List.mem_cons_self) (halts x List.mem_cons_self) ?_
      exact ih (fun y member => performs y (List.mem_cons_of_mem _ member))
        (fun y member => halts y (List.mem_cons_of_mem _ member))

/-- A clause fails as a wildcard that is refused, or with the file it leads to. -/
theorem halts_bindImport {scanPath : Path → Scan Nat}
    (halts : ∀ name path, HaltsAt tree (fun b => b.table.find? name = some path ∧ suitable b)
      (scanPath path) path) (c : Clause) :
    Halts tree suitable (bindImport scanPath c.importer c.path c.number c.topLevel c.form)
      [.meet c] := by
  intro b holds fault b' ended rest
  rw [outcome_bindImport] at ended
  split at ended
  · cases ended
  next ordinary =>
    split at ended
    next denied =>
      cases ended
      refine ⟨.meet c, rest, .refl, ?_⟩
      rw [Task.perform, if_neg ordinary, if_pos denied]
    next allowed =>
      rw [outcome_resolveModule] at ended
      cases known : knownModule? b c.source with
      | some id => simp [known] at ended
      | none =>
          cases listed : b.table.find? c.source with
          | none => simp [known, listed] at ended
          | some path =>
              have met : Next tree ⟨b, .meet c :: rest⟩
                  ⟨b.markVisited c.source, .visit c path :: rest⟩ := by
                have performed : (Task.meet c).perform tree b =
                    .ok (b.markVisited c.source, [.visit c path]) := by
                  rw [Task.perform, if_neg ordinary, if_neg allowed, known, listed]
                exact Next.perform performed
              have marked := lasting (Build.Keeps.markVisited b c.source).toGrows holds
              rcases run : (scanPath path).outcome (b.markVisited c.source) with ⟨fault' | id, b₂⟩
              · simp only [known, listed, run, Prod.mk.injEq, Except.error.injEq] at ended
                obtain ⟨rfl, rfl⟩ := ended
                refine Fails.head (.single met) ?_
                rcases halts c.source path (b.markVisited c.source) ⟨listed, marked⟩ _ _ run with
                  ⟨unopened, rfl⟩ | ⟨b₁, id, tasks, entered, fails⟩
                · exact ⟨.visit c path, rest, .refl, by rw [Task.perform, unopened]⟩
                · have opened : Next tree ⟨b.markVisited c.source, .visit c path :: rest⟩
                      ⟨b₁, tasks ++ ([.arrive c id] ++ rest)⟩ := by
                    rw [← List.append_assoc]
                    exact Next.perform (perform_visit entered)
                  exact (fails _).head (.single opened)
              · simp [known, listed, run] at ended

theorem halts_scanStatement {scanPath : Path → Scan Nat}
    (visits : ∀ path, Visits tree (scanPath path) path)
    (halts : ∀ name path, HaltsAt tree (fun b => b.table.find? name = some path ∧ suitable b)
      (scanPath path) path) (id : Nat) (path : Path) (s : Statement) :
    Halts tree suitable (scanStatement scanPath id path s) (s.tasks id path) := by
  cases s with
  | code number line lexed =>
      intro b _ fault b' ended
      cases ended
  | imports number lines forms topLevel =>
      rw [Statement.tasks, List.map_eq_flatMap]
      exact halts_forM lasting
        (fun form _ => performs_bindImport visits ⟨id, path, number, topLevel, form⟩)
        (fun form _ => halts_bindImport lasting halts ⟨id, path, number, topLevel, form⟩)

end Halting

/-- **The levels that a scan needs**: one for each file that is still to be read, one to
find that none is, and one for the given file if the table does not list it. -/
def EnoughLevels (tree : FileTree) (depth : Nat) (given : Path) (b : Build) : Prop :=
  unread tree b + 1 < depth ∨ (∃ name, b.table.find? name = some given) ∧ unread tree b < depth

/-- **With enough levels, faults come from tasks.**  The induction is on the levels; what
carries it is that a file of the table that is opened is no longer to be read. -/
theorem haltsAt_scanFile (tree : FileTree) (depth : Nat) :
    ∀ given, HaltsAt tree (EnoughLevels tree depth given) (scanFile tree depth given) given := by
  induction depth with
  | zero =>
      intro given b enough
      rcases enough with few | ⟨-, few⟩
      · exact absurd few (Nat.not_lt_zero _)
      · exact absurd few (Nat.not_lt_zero _)
  | succ depth ih =>
      intro given b enough fault b' ended
      rw [outcome_scanFile_succ] at ended
      cases known : b.graph.byPath? (tree.canonical given) with
      | some id => simp [known] at ended
      | none =>
          cases read : tree.readText (tree.canonical given) with
          | error cause =>
              simp only [known, read, Prod.mk.injEq, Except.error.injEq] at ended
              obtain ⟨rfl, rfl⟩ := ended
              exact Or.inl ⟨by simp [enter, known, read], rfl⟩
          | ok source =>
              have entered : enter tree given b =
                  .ok ((openModule (tree.canonical given) source b).1,
                    (openModule (tree.canonical given) source b).2,
                    fileTasks (openModule (tree.canonical given) source b).2
                      (tree.canonical given) source) := by
                simp [enter, known, read]
              have fewer : unread tree (openModule (tree.canonical given) source b).1 < depth := by
                rcases enough with more | ⟨⟨name, listed⟩, more⟩
                · exact (unread_le (.openModule known source)).trans_lt (Nat.lt_of_succ_lt_succ more)
                · exact (unread_openModule_lt listed known source).trans_le (Nat.le_of_lt_succ more)
              have halts : ∀ name path, HaltsAt tree
                  (fun b => b.table.find? name = some path ∧ unread tree b < depth)
                  (scanFile tree depth path) path := by
                intro name path b₁ holds
                exact ih path b₁ (Or.inr ⟨⟨name, holds.1⟩, holds.2⟩)
              have visits : ∀ path, Visits tree (scanFile tree depth path) path :=
                visits_scanFile depth
              have lasting : ∀ {b b' : Build}, b.Grows b' → unread tree b < depth →
                  unread tree b' < depth := fun grows few => (unread_le grows).trans_lt few
              have all := halts_forM lasting
                (fun s _ => performs_scanStatement visits
                  (openModule (tree.canonical given) source b).2 (tree.canonical given) s)
                (fun s (_ : s ∈ statements source) => halts_scanStatement lasting visits halts
                  (openModule (tree.canonical given) source b).2 (tree.canonical given) s)
              simp only [known, read] at ended
              split at ended
              · cases ended
              next fault' b₂ run =>
                cases ended
                exact Or.inr ⟨_, _, _, entered, all _ fewer _ _ run⟩

/-! ### Ends -/

/-- **How a scan ends**: the entry cannot be opened, the agenda is emptied, or its first
task fails. -/
inductive Ended (tree : FileTree) (entry : Path) (start : Build) :
    Except Fault Nat × Build → Prop where
  | unopened {fault : Fault} (failed : enter tree entry start = .error fault) :
      Ended tree entry start (.error fault, start)
  | emptied {b₁ b : Build} {id : Nat} {tasks : List Task}
      (entered : enter tree entry start = .ok (b₁, id, tasks))
      (leads : Leads tree ⟨b₁, tasks⟩ ⟨b, []⟩) : Ended tree entry start (.ok id, b)
  | failed {b₁ b : Build} {id : Nat} {tasks : List Task} {fault : Fault}
      (entered : enter tree entry start = .ok (b₁, id, tasks))
      (fails : Fails tree ⟨b₁, tasks⟩ fault b) : Ended tree entry start (.error fault, b)

/-- No step leads on from a task that fails. -/
theorem not_next_of_error {b : Build} {task : Task} {left : List Task} {fault : Fault}
    (failed : task.perform tree b = .error fault) {s : Moment} :
    ¬ Next tree ⟨b, task :: left⟩ s := by
  rintro ⟨performed⟩
  rw [failed] at performed
  cases performed

/-- Two moments that lead no further are one. -/
theorem Leads.eq_of_final {s t t' : Moment} (leads : Leads tree s t) (leads' : Leads tree s t')
    (final : ∀ {u}, ¬ Next tree t u) (final' : ∀ {u}, ¬ Next tree t' u) : t = t' := by
  rcases Relation.ReflTransGen.total_of_right_unique next_deterministic leads leads' with on | on
  · rcases Relation.ReflTransGen.cases_head on with same | ⟨_, step, -⟩
    · exact same
    · exact absurd step final
  · rcases Relation.ReflTransGen.cases_head on with same | ⟨_, step, -⟩
    · exact same.symm
    · exact absurd step final'

/-- **A scan has one end.** -/
theorem Ended.unique {entry : Path} {start : Build} {result result' : Except Fault Nat × Build}
    (ended : Ended tree entry start result) (ended' : Ended tree entry start result') :
    result = result' := by
  cases ended with
  | unopened failed =>
      cases ended' with
      | unopened failed' =>
          rw [failed] at failed'
          cases failed'
          rfl
      | emptied entered => rw [failed] at entered; cases entered
      | failed entered => rw [failed] at entered; cases entered
  | emptied entered leads =>
      cases ended' with
      | unopened failed => rw [entered] at failed; cases failed
      | emptied entered' leads' =>
          rw [entered] at entered'
          cases entered'
          cases leads.eq_of_final leads' not_next_nil not_next_nil
          rfl
      | failed entered' fails =>
          obtain ⟨task, left, leads', failed⟩ := fails
          rw [entered] at entered'
          cases entered'
          cases leads.eq_of_final leads' not_next_nil (not_next_of_error failed)
  | failed entered fails =>
      obtain ⟨task, left, leads, failed⟩ := fails
      cases ended' with
      | unopened failed => rw [entered] at failed; cases failed
      | emptied entered' leads' =>
          rw [entered] at entered'
          cases entered'
          cases leads.eq_of_final leads' (not_next_of_error failed) not_next_nil
      | failed entered' fails' =>
          obtain ⟨task', left', leads', failed'⟩ := fails'
          rw [entered] at entered'
          cases entered'
          cases leads.eq_of_final leads' (not_next_of_error failed) (not_next_of_error failed')
          rw [failed] at failed'
          cases failed'
          rfl

/-- **A scan with more levels than the table has files, and one, ends as the agenda
does.** -/
theorem scanFile_ended {entry : Path} {start : Build} {depth : Nat}
    (enough : start.table.entries.length + 1 < depth) :
    Ended tree entry start ((scanFile tree depth entry).outcome start) := by
  rcases run : (scanFile tree depth entry).outcome start with ⟨fault | id, b⟩
  · have levels : EnoughLevels tree depth entry start :=
      Or.inl ((Nat.add_le_add_right (unread_le_length tree start) 1).trans_lt enough)
    rcases haltsAt_scanFile tree depth entry start levels fault b run with
      ⟨unopened, rfl⟩ | ⟨b₁, id, tasks, entered, fails⟩
    · exact .unopened unopened
    · have whole := fails []
      rw [List.append_nil] at whole
      exact .failed entered whole
  · obtain ⟨b₁, tasks, entered, leads⟩ := (visits_scanFile depth entry start).1 id b run
    have whole := leads []
    rw [List.append_nil] at whole
    exact .emptied entered whole

/-! ### Reading -/

/-- **A file is read at this moment**: it is visited next, and it is not in the graph. -/
def Moment.Reads (tree : FileTree) (s : Moment) (full : Path) : Prop :=
  ∃ c path rest, s.agenda = .visit c path :: rest ∧ full = tree.canonical path ∧
    s.build.graph.byPath? full = none

/-- What is in the graph is not read. -/
theorem Moment.Reads.not_same {s : Moment} {p q : Path} (reads : s.Reads tree q)
    (there : (s.build.graph.byPath? p).isSome) : p.same q = false := by
  obtain ⟨_, _, _, -, -, absent⟩ := reads
  rw [Bool.eq_false_iff]
  intro same
  rw [s.build.graph.byPath?_congr same, absent] at there
  cases there

/-- **What was read is not read again.** -/
theorem Moment.Reads.once {s s' : Moment} {p q : Path} (reads : s.Reads tree p)
    (later : Relation.TransGen (Next tree) s s') (again : s'.Reads tree q) :
    p.same q = false := by
  obtain ⟨first, step, onward⟩ := Relation.TransGen.head'_iff.mp later
  obtain ⟨b, agenda⟩ := s
  obtain ⟨c, path, rest, rfl, rfl, absent⟩ := reads
  refine again.not_same (Leads.grows onward |>.byPath?_isSome ?_)
  cases step with
  | perform done =>
      cases performed_of_perform done with
      | revisit there => rw [show b.graph.byPath? _ = none from absent] at there; cases there
      | opened new => exact byPath?_openModule new _

/-- The entry is in the graph at every moment of its scan. -/
theorem Encounter.entry_there {entry : Path} {start : Build} {s : Moment}
    (now : Encounter tree entry start s) :
    (s.build.graph.byPath? (tree.canonical entry)).isSome := by
  obtain ⟨b, id, tasks, entered, leads⟩ := now
  refine leads.grows.byPath?_isSome ?_
  rcases enter_cases entered with ⟨there, rfl, -⟩ | ⟨absent, source, -, -, rfl, -⟩
  · rw [there]
    rfl
  · exact byPath?_openModule absent source

/-! ### Where paths, names and dependencies lead -/

/-- **The graph is consistent**: no two modules have one path, a path leads to the module
that has it, and names and dependencies lead to modules. -/
structure Graph.Consistent (g : Graph) : Prop where
  path_inj : ∀ i j m n, g.module? i = some m → g.module? j = some n →
    m.path.same n.path = true → i = j
  byPath : ∀ p i, g.byPath? p = some i ↔ ∃ m, g.module? i = some m ∧ m.path.same p = true
  byName : ∀ name id, g.byName? name = some id → id < g.nodes.length
  dependency : ∀ i m name, g.module? i = some m → name ∈ m.dependencies →
    (g.byName? name).isSome

/-- Dependencies lead to modules, at every moment of a scan. -/
theorem Encounter.dependency {entry : Path} {start : Build}
    (begins : ∀ i m name, start.graph.module? i = some m → name ∈ m.dependencies →
      (start.graph.byName? name).isSome)
    {s : Moment} (now : Encounter tree entry start s) :
    ∀ i m name, s.build.graph.module? i = some m → name ∈ m.dependencies →
      (s.build.graph.byName? name).isSome := by
  have kept : ∀ {b b' : Build} {name : String}, b.Grows b' → (b.graph.byName? name).isSome →
      (b'.graph.byName? name).isSome := by
    intro b b' name grows leads
    obtain ⟨id, found⟩ := Option.isSome_iff_exists.mp leads
    rw [grows.byName found]
    rfl
  refine (Encounter.invariant
    (Q := fun b => ∀ i m name, b.graph.module? i = some m → name ∈ m.dependencies →
      (b.graph.byName? name).isSome)
    (P := fun b task => task.Finds fun name _ => (b.graph.byName? name).isSome)
    (fun entered => ?_) (fun {b b' task rest new} _ done indexed leads => ?_)
    (fun performed waits => waits.mono fun _ _ => kept performed.grows) now).1
  · rcases enter_cases entered with ⟨-, rfl, rfl⟩ | ⟨absent, source, -, -, rfl, rfl⟩
    · exact ⟨begins, by simp⟩
    · refine ⟨fun i m name here member => ?_,
        forall_mem_fileTasks (fun _ _ => trivial) (fun _ => trivial)⟩
      obtain ⟨m', there, before⟩ :=
        (Build.BindsNothing.openModule absent source).dependencies here member
      exact kept (.openModule absent source) (begins i m' name there before)
  · have performed := performed_of_perform done
    refine ⟨fun i m name here member => ?_, ?_⟩
    · rcases performed.bindsNothing_or_bound with nothing | ⟨c, found, rfl, rfl⟩
      · obtain ⟨m', there, before⟩ := nothing.dependencies here member
        exact kept performed.grows (indexed i m' name there before)
      · rw [graph_bindModule] at here
        rcases module?_modify_cases here with ⟨rfl, m', there, rfl⟩ | ⟨-, there⟩
        · rcases Module.mem_addDependency.mp member with old | ⟨-, rfl⟩
          · exact kept performed.grows (indexed _ m' name there old)
          · exact kept performed.grows leads
        · exact kept performed.grows (indexed i m name there member)
    · refine performed.finds_new (fun _ same _ known => ?_) (fun {c id} _ after => ?_)
      · rw [same, byName?_of_knownModule? known]
        rfl
      · subst after
        change ((b.graph.addName c.source id).byName? c.source).isSome
        rw [Graph.byName?_addName, if_pos rfl]
        cases b.graph.byName? c.source <;> rfl

/-- What the invariants say of the graph. -/
theorem Build.Traced.consistent {b : Build} (traced : b.Traced tree)
    (dependency : ∀ i m name, b.graph.module? i = some m → name ∈ m.dependencies →
      (b.graph.byName? name).isSome) : b.graph.Consistent where
  path_inj _ _ _ _ first second same := traced.path_inj first second (Path.same_iff.mp same)
  byPath p i := by
    refine ⟨traced.inStep.module?_of_byPath?, ?_⟩
    rintro ⟨m, here, same⟩
    cases found : b.graph.byPath? p with
    | none =>
        have different := traced.inStep.not_same_of_byPath? found here
        rw [same] at different
        cases different
    | some j =>
        obtain ⟨n, there, same'⟩ := traced.inStep.module?_of_byPath? found
        rw [traced.path_inj here there
          ((Path.same_iff.mp same).trans (Path.same_iff.mp same').symm)]
  byName _ _ leads := by
    obtain ⟨m, here, -⟩ := traced.named leads
    exact Graph.module?_isSome_iff.mp (by rw [here]; rfl)
  dependency := dependency

/-- **A scan ends, and reads each file once.**  For every file tree, entry, search table and
policy: the scan comes to the end of its agenda or to a task that fails, with an outcome
that does not depend on how deep files may import each other, as long as that is more than
the files of the table and one; the entry is not read again, and a file that was read is
not read at any later moment; and the build it leaves, also after a fault, has a consistent
graph. -/
theorem scan_ends_reading_once (tree : FileTree) (entry : Path) (table : SearchTable)
    (wildcard : WildcardPolicy) (cycles : CyclePolicy) (diagnostics : List Diagnostic) :
    let start : Build := { table, wildcard, cycles, diagnostics }
    let result := start.scanPath tree entry
    (Ended tree entry start result ∧
      ∀ depth, table.entries.length + 1 < depth →
        (scanFile tree depth entry).outcome start = result) ∧
    (∀ s p, Encounter tree entry start s → s.Reads tree p →
      (tree.canonical entry).same p = false ∧
      ∀ s' q, Relation.TransGen (Next tree) s s' → s'.Reads tree q → p.same q = false) ∧
    result.2.graph.Consistent := by
  intro start result
  have ended : Ended tree entry start result := by
    rw [show result = _ from scanPath_eq tree entry start]
    exact scanFile_ended (Nat.lt_succ_self _)
  refine ⟨⟨ended, fun depth enough => (scanFile_ended enough).unique ended⟩,
    fun s p now reads => ⟨reads.not_same now.entry_there, fun s' q later again => ?_⟩, ?_⟩
  · exact reads.once later again
  · have begins := traced_start tree table wildcard cycles diagnostics
    have nothing : ∀ i m name, start.graph.module? i = some m → name ∈ m.dependencies →
        (start.graph.byName? name).isSome := fun i m name here => by cases here
    rcases scanPath_encounter tree entry start with untouched | ⟨left, now⟩
    · rw [show result.2 = start from untouched]
      exact begins.consistent nothing
    · exact (now.traced begins).1.consistent (now.dependency nothing)

end Amalgam
