import Amalgam.Build.Scan
import Mathlib.Logic.Relation

/-!
# The scan as a list of things to do

`scanFile` reads a file inside the scan of another one, so an invariant of the
build would have to be carried through a recursion, through the loop over a file's
statements, and past every place where a fault can end all of them.  This module
unrolls the recursion once and for all.

A **moment** of a scan is the build together with an **agenda**, the tasks that are
still to be done, first one first.  A task is small: a line of code, a clause that
is met, a file that is visited for it, the name under which the file's module is
reached, and what the clause does with the outcome.  `Task.perform` does one task
and says which tasks come before the rest; opening a file puts all of its statements
there.  `Next` is one such step, `Leads` any number of them.

## What ties the agenda to the scan

`visits_scanFile` is the simulation: whatever a scan returns, the agenda of the file
leads from the build the scan starts with to the build the scan leaves.  A scan that
succeeds has emptied the agenda (`scanPath_ok_encounter`); one that fails stops with some
of it left, at the build it failed with (`scanPath_encounter`).  Since a step is a
function of the moment (`next_deterministic`), the moments reached from the first
one are those of the scan and no others.

An invariant of scans is then a property of moments that one task keeps
(`Encounter.induction`).
-/

namespace Amalgam

/-! ### Outcomes -/

namespace Scan

/-- What a scan returns, and the build it leaves. -/
def outcome {α : Type} (scan : Scan α) (b : Build) : Except Fault α × Build :=
  scan.run.run b

@[simp] theorem outcome_pure {α : Type} (a : α) (b : Build) :
    (pure a : Scan α).outcome b = (.ok a, b) := rfl

@[simp] theorem outcome_throw {α : Type} (fault : Fault) (b : Build) :
    (throw fault : Scan α).outcome b = (.error fault, b) := rfl

@[simp] theorem outcome_get (b : Build) : (get : Scan Build).outcome b = (.ok b, b) := rfl

@[simp] theorem outcome_update (f : Build → Build) (b : Build) :
    (update f).outcome b = (.ok (), f b) := rfl

@[simp] theorem outcome_modifyGet {α : Type} (f : Build → α × Build) (b : Build) :
    (modifyGet f : Scan α).outcome b = (.ok (f b).1, (f b).2) := rfl

/-- A fault ends what follows. -/
theorem outcome_bind {α β : Type} (scan : Scan α) (next : α → Scan β) (b : Build) :
    (scan >>= next).outcome b =
      match scan.outcome b with
      | (.ok a, b') => (next a).outcome b'
      | (.error fault, b') => (.error fault, b') := by
  simp only [outcome, ExceptT.run_bind, StateT.run_bind]
  generalize StateT.run (ExceptT.run scan) b = result
  rcases result with ⟨fault | a, b'⟩ <;> rfl

end Scan

/-! ### Moments -/

/-- A clause of an import, with the module and the place where it stands. -/
structure Clause where
  importer : Nat
  path : Path
  number : Nat
  topLevel : Bool
  form : ImportForm
  deriving DecidableEq

/-- The module that a clause names. -/
def Clause.source (c : Clause) : String :=
  c.form.source

/-- Something that a scan has still to do. -/
inductive Task where
  /-- Record a line of code. -/
  | code (id : Nat) (path : Path) (number : Nat) (lexed : LexedLine)
  /-- Meet a clause. -/
  | meet (clause : Clause)
  /-- Visit the file that a clause's module was found in. -/
  | visit (clause : Clause) (path : Path)
  /-- Let the name of a clause lead to the module of its file. -/
  | arrive (clause : Clause) (id : Nat)
  /-- Act on what a clause's module turned out to be. -/
  | settle (clause : Clause) (found : Option Nat)
  deriving DecidableEq

/-- The tasks of a statement in module `id`. -/
def Statement.tasks (id : Nat) (path : Path) : Statement → List Task
  | .code number _ lexed => [.code id path number lexed]
  | .imports number _ forms topLevel => forms.map fun form => .meet ⟨id, path, number, topLevel, form⟩

/-- The tasks of a file whose module is `id`. -/
def fileTasks (id : Nat) (path : Path) (source : List Char) : List Task :=
  (statements source).flatMap (Statement.tasks id path)

/-- Opens the file at a path: the build with its module, the module, and the tasks of
the file.  A file that is there already brings no tasks. -/
def enter (tree : FileTree) (given : Path) (b : Build) : Except Fault (Build × Nat × List Task) :=
  let full := tree.canonical given
  match b.graph.byPath? full with
  | some id => .ok (b, id, [])
  | none =>
    match tree.readText full with
    | .error cause => .error (.unreadableSource given full cause)
    | .ok source =>
      let (opened, id) := openModule full source b
      .ok (opened, id, fileTasks id full source)

/-- Does one task: the build afterwards, and the tasks that come before the rest.  A
task that fails leaves the build as it is. -/
def Task.perform (tree : FileTree) (b : Build) : Task → Except Fault (Build × List Task)
  | .code id path number lexed => .ok (scanCode id path number lexed b, [])
  | .meet c =>
    if c.form.isFuture then .ok (b.addFuture c.form.render, [])
    else if c.form.isWildcard && b.wildcard = .deny then
      .error (.wildcardDenied c.source c.path c.number)
    else
      match knownModule? b c.source with
      | some id => .ok (b, [.settle c (some id)])
      | none =>
        match b.table.find? c.source with
        | some path => .ok (b.markVisited c.source, [.visit c path])
        | none => .ok (b.addExternal c.source, [.settle c none])
  | .visit c path =>
    match enter tree path b with
    | .ok (opened, id, tasks) => .ok (opened, tasks ++ [.arrive c id])
    | .error fault => .error fault
  | .arrive c id =>
    .ok ({ b with graph := b.graph.addName c.source id }, [.settle c (some id)])
  | .settle c (some found) => .ok (bindModule c.importer found c.path c.number c.form b, [])
  | .settle c none => .ok (bindExternal c.importer c.path c.number c.form c.topLevel b, [])

theorem perform_visit {tree : FileTree} {b opened : Build} {c : Clause} {path : Path} {id : Nat}
    {tasks : List Task} (entered : enter tree path b = .ok (opened, id, tasks)) :
    (Task.visit c path).perform tree b = .ok (opened, tasks ++ [.arrive c id]) := by
  rw [Task.perform, entered]

theorem perform_arrive (tree : FileTree) (b : Build) (c : Clause) (id : Nat) :
    (Task.arrive c id).perform tree b =
      .ok ({ b with graph := b.graph.addName c.source id }, [.settle c (some id)]) := rfl

theorem perform_settle_some (tree : FileTree) (b : Build) (c : Clause) (found : Nat) :
    (Task.settle c (some found)).perform tree b =
      .ok (bindModule c.importer found c.path c.number c.form b, []) := rfl

theorem perform_settle_none (tree : FileTree) (b : Build) (c : Clause) :
    (Task.settle c none).perform tree b =
      .ok (bindExternal c.importer c.path c.number c.form c.topLevel b, []) := rfl

/-- A build, and what is still to be done. -/
structure Moment where
  build : Build
  agenda : List Task

/-- One task of the agenda is done. -/
inductive Next (tree : FileTree) : Moment → Moment → Prop where
  | perform {b b' : Build} {task : Task} {rest new : List Task}
      (performed : task.perform tree b = .ok (b', new)) :
      Next tree ⟨b, task :: rest⟩ ⟨b', new ++ rest⟩

/-- Some tasks of the agenda are done. -/
abbrev Leads (tree : FileTree) : Moment → Moment → Prop :=
  Relation.ReflTransGen (Next tree)

/-- **A moment of the scan** of the file `entry` from the build `start`. -/
def Encounter (tree : FileTree) (entry : Path) (start : Build) (s : Moment) : Prop :=
  ∃ b id tasks, enter tree entry start = .ok (b, id, tasks) ∧ Leads tree ⟨b, tasks⟩ s

variable {tree : FileTree} {entry : Path} {start b b' : Build} {task : Task}
  {rest new : List Task} {s s' : Moment}

theorem next_deterministic : Relator.RightUnique (Next tree) := by
  rintro _ _ _ ⟨first⟩ ⟨second⟩
  rw [first] at second
  cases second
  rfl

/-- An emptied agenda is the end. -/
theorem not_next_nil : ¬ Next tree ⟨b, []⟩ s := by
  rintro ⟨⟩

/-- Doing the first task of a moment leads to another. -/
theorem Encounter.next (now : Encounter tree entry start ⟨b, task :: rest⟩)
    (performed : task.perform tree b = .ok (b', new)) :
    Encounter tree entry start ⟨b', new ++ rest⟩ := by
  obtain ⟨b₀, id, tasks, entered, leads⟩ := now
  exact ⟨b₀, id, tasks, entered, leads.tail (.perform performed)⟩

/-- Of two moments of a scan one leads to the other. -/
theorem Encounter.total (now : Encounter tree entry start s)
    (then' : Encounter tree entry start s') : Leads tree s s' ∨ Leads tree s' s := by
  obtain ⟨b, id, tasks, entered, leads⟩ := now
  obtain ⟨b', id', tasks', entered', leads'⟩ := then'
  rw [entered] at entered'
  cases entered'
  exact Relation.ReflTransGen.total_of_right_unique next_deterministic leads leads'

/-- Every moment of a scan that ends leads to its end. -/
theorem Encounter.leads_end (now : Encounter tree entry start s)
    (last : Encounter tree entry start ⟨b, []⟩) : Leads tree s ⟨b, []⟩ := by
  rcases now.total last with onward | back
  · exact onward
  · rcases Relation.ReflTransGen.cases_head back with same | ⟨next, step, -⟩
    · rw [← same]
    · exact absurd step not_next_nil

/-- **What one task keeps, a scan keeps.**  The property may speak of the agenda as
well as of the build. -/
theorem Encounter.induction {motive : Build → List Task → Prop}
    (opened : ∀ {b id tasks}, enter tree entry start = .ok (b, id, tasks) → motive b tasks)
    (kept : ∀ {b b' : Build} {task : Task} {rest new : List Task},
      Encounter tree entry start ⟨b, task :: rest⟩ → task.perform tree b = .ok (b', new) →
      motive b (task :: rest) → motive b' (new ++ rest))
    (now : Encounter tree entry start s) : motive s.build s.agenda := by
  obtain ⟨b, id, tasks, entered, leads⟩ := now
  induction leads with
  | refl => exact opened entered
  | tail before step ih =>
      cases step with
      | perform performed => exact kept ⟨b, id, tasks, entered, before⟩ performed ih

/-! ### The simulation -/

section Simulation

/-- A computation does what the tasks do, wherever it ends and whatever follows. -/
def Performs (tree : FileTree) (scan : Scan Unit) (tasks : List Task) : Prop :=
  ∀ b, (∀ b', scan.outcome b = (.ok (), b') →
      ∀ rest, Leads tree ⟨b, tasks ++ rest⟩ ⟨b', rest⟩) ∧
    ∀ fault b', scan.outcome b = (.error fault, b') →
      ∀ rest, ∃ left, Leads tree ⟨b, tasks ++ rest⟩ ⟨b', left⟩

/-- A computation visits the file `given` and does what its tasks do.  One that fails
before the file is open has changed nothing. -/
def Visits (tree : FileTree) (scan : Scan Nat) (given : Path) : Prop :=
  ∀ b, (∀ id b', scan.outcome b = (.ok id, b') →
      ∃ b₁ tasks, enter tree given b = .ok (b₁, id, tasks) ∧
        ∀ rest, Leads tree ⟨b₁, tasks ++ rest⟩ ⟨b', rest⟩) ∧
    ∀ fault b', scan.outcome b = (.error fault, b') →
      b' = b ∨ ∃ b₁ id tasks, enter tree given b = .ok (b₁, id, tasks) ∧
        ∀ rest, ∃ left, Leads tree ⟨b₁, tasks ++ rest⟩ ⟨b', left⟩

theorem performs_pure : Performs tree (pure ()) [] := by
  intro b
  refine ⟨fun b' ended rest => ?_, fun fault b' ended => ?_⟩
  · cases ended
    exact .refl
  · cases ended

/-- Tasks that are done one after the other. -/
theorem Performs.append {first second : Scan Unit} {tasks later : List Task}
    (performs : Performs tree first tasks) (then' : Performs tree second later) :
    Performs tree (first >>= fun _ => second) (tasks ++ later) := by
  intro b
  obtain ⟨succeeds, fails⟩ := performs b
  rcases run : first.outcome b with ⟨fault | ⟨⟩, b₁⟩
  · refine ⟨fun b' ended => ?_, fun fault' b' ended rest => ?_⟩
    · rw [Scan.outcome_bind, run] at ended
      cases ended
    · rw [Scan.outcome_bind, run] at ended
      cases ended
      rw [List.append_assoc]
      exact fails fault _ run (later ++ rest)
  · have done := succeeds b₁ run
    obtain ⟨succeeds', fails'⟩ := then' b₁
    refine ⟨fun b' ended rest => ?_, fun fault b' ended rest => ?_⟩
    · rw [Scan.outcome_bind, run] at ended
      rw [List.append_assoc]
      exact (done (later ++ rest)).trans (succeeds' b' ended rest)
    · rw [Scan.outcome_bind, run] at ended
      obtain ⟨left, leads⟩ := fails' fault b' ended rest
      rw [List.append_assoc]
      exact ⟨left, (done (later ++ rest)).trans leads⟩

theorem performs_forM {α : Type} {f : α → Scan Unit} {tasks : α → List Task} {xs : List α}
    (performs : ∀ x ∈ xs, Performs tree (f x) (tasks x)) :
    Performs tree (xs.forM f) (xs.flatMap tasks) := by
  induction xs with
  | nil => exact performs_pure
  | cons x xs ih =>
      rw [List.forM_eq_forM, List.forM_cons, List.flatMap_cons]
      exact (performs x List.mem_cons_self).append
        (ih fun y member => performs y (List.mem_cons_of_mem _ member))

/-- A task that cannot fail is the update it makes. -/
theorem performs_update {task : Task} {f : Build → Build}
    (performed : ∀ b, task.perform tree b = .ok (f b, [])) :
    Performs tree (Scan.update f) [task] := by
  intro b
  refine ⟨fun b' ended rest => ?_, fun fault b' ended => ?_⟩
  · cases ended
    exact .single (.perform (performed b))
  · cases ended

/-- What finding the module of an import does. -/
theorem outcome_resolveModule (scanPath : Path → Scan Nat) (name : String) (b : Build) :
    (resolveModule scanPath name).outcome b =
      match knownModule? b name with
      | some id => (.ok (some id), b)
      | none =>
        match b.table.find? name with
        | some path =>
          match (scanPath path).outcome (b.markVisited name) with
          | (.ok id, b') => (.ok (some id), { b' with graph := b'.graph.addName name id })
          | (.error fault, b') => (.error fault, b')
        | none => (.ok none, b.addExternal name) := by
  rw [resolveModule, Scan.outcome_bind, Scan.outcome_get]
  dsimp only
  cases known : knownModule? b name with
  | some id => rfl
  | none =>
      cases found : b.table.find? name with
      | some path =>
          simp only [Scan.outcome_bind, Scan.outcome_update]
          rcases (scanPath path).outcome (b.markVisited name) with ⟨fault | id, b'⟩ <;> rfl
      | none => rfl

/-- What a clause does. -/
theorem outcome_bindImport (scanPath : Path → Scan Nat) (c : Clause) (b : Build) :
    (bindImport scanPath c.importer c.path c.number c.topLevel c.form).outcome b =
      if c.form.isFuture then (.ok (), b.addFuture c.form.render)
      else if c.form.isWildcard && b.wildcard = .deny then
        (.error (.wildcardDenied c.source c.path c.number), b)
      else
        match (resolveModule scanPath c.source).outcome b with
        | (.ok (some found), b') => (.ok (), bindModule c.importer found c.path c.number c.form b')
        | (.ok none, b') =>
          (.ok (), bindExternal c.importer c.path c.number c.form c.topLevel b')
        | (.error fault, b') => (.error fault, b') := by
  rw [bindImport]
  split
  · rfl
  · rw [Scan.outcome_bind, Scan.outcome_get]
    dsimp only
    split
    · rfl
    · rw [Scan.outcome_bind, Clause.source]
      rcases (resolveModule scanPath c.form.source).outcome b with ⟨fault | ⟨⟩ | found, b'⟩ <;> rfl

/-- The clause of a file that is visited: the file, its name, and what is bound. -/
theorem leads_visit {c : Clause} {path : Path} {b b₁ b₂ : Build} {id : Nat} {tasks : List Task}
    (entered : enter tree path b = .ok (b₁, id, tasks))
    (leads : ∀ rest, Leads tree ⟨b₁, tasks ++ rest⟩ ⟨b₂, rest⟩) (rest : List Task) :
    Leads tree ⟨b, .visit c path :: rest⟩
      ⟨bindModule c.importer id c.path c.number c.form
        { b₂ with graph := b₂.graph.addName c.source id }, rest⟩ := by
  have scanned := leads (.arrive c id :: rest)
  refine .head (.perform (perform_visit entered)) ?_
  rw [List.append_assoc]
  refine scanned.trans ?_
  exact .head (.perform (perform_arrive tree b₂ c id))
    (.single (.perform (perform_settle_some tree _ c id)))

/-- The clause of a file whose scan fails. -/
theorem leads_visit_error {c : Clause} {path : Path} {b b₁ b₂ : Build} {id : Nat}
    {tasks : List Task} (entered : enter tree path b = .ok (b₁, id, tasks))
    (leads : ∀ rest, ∃ left, Leads tree ⟨b₁, tasks ++ rest⟩ ⟨b₂, left⟩) (rest : List Task) :
    ∃ left, Leads tree ⟨b, .visit c path :: rest⟩ ⟨b₂, left⟩ := by
  obtain ⟨left, scanned⟩ := leads (.arrive c id :: rest)
  refine ⟨left, .head (.perform (perform_visit entered)) ?_⟩
  rw [List.append_assoc]
  exact scanned

/-- **A clause is the task of meeting it**, if visiting files is what their scans do. -/
theorem performs_bindImport {scanPath : Path → Scan Nat}
    (visits : ∀ path, Visits tree (scanPath path) path) (c : Clause) :
    Performs tree (bindImport scanPath c.importer c.path c.number c.topLevel c.form)
      [.meet c] := by
  intro b
  rw [outcome_bindImport]
  by_cases future : c.form.isFuture = true
  · have performed : (Task.meet c).perform tree b = .ok (b.addFuture c.form.render, []) := by
      rw [Task.perform, if_pos future]
    rw [if_pos future]
    refine ⟨fun b' ended rest => ?_, fun fault b' ended => by cases ended⟩
    cases ended
    exact .single (.perform performed)
  rw [if_neg future]
  by_cases denied : (c.form.isWildcard && b.wildcard = .deny) = true
  · rw [if_pos denied]
    refine ⟨fun b' ended => (by cases ended), fun fault b' ended rest => ?_⟩
    cases ended
    exact ⟨_, .refl⟩
  rw [if_neg denied, outcome_resolveModule]
  cases known : knownModule? b c.source with
  | some id =>
      have performed : (Task.meet c).perform tree b = .ok (b, [.settle c (some id)]) := by
        rw [Task.perform, if_neg future, if_neg denied, known]
      refine ⟨fun b' ended rest => ?_, fun fault b' ended => by cases ended⟩
      cases ended
      exact .head (.perform performed) (.single (.perform (perform_settle_some tree b c id)))
  | none =>
      cases found : b.table.find? c.source with
      | none =>
          have performed : (Task.meet c).perform tree b =
              .ok (b.addExternal c.source, [.settle c none]) := by
            rw [Task.perform, if_neg future, if_neg denied, known, found]
          refine ⟨fun b' ended rest => ?_, fun fault b' ended => by cases ended⟩
          cases ended
          exact .head (.perform performed) (.single (.perform (perform_settle_none tree _ c)))
      | some path =>
          have performed : (Task.meet c).perform tree b =
              .ok (b.markVisited c.source, [.visit c path]) := by
            rw [Task.perform, if_neg future, if_neg denied, known, found]
          obtain ⟨succeeds, fails⟩ := visits path (b.markVisited c.source)
          rcases run : (scanPath path).outcome (b.markVisited c.source) with ⟨fault | id, b₂⟩
          · refine ⟨fun b' ended => (by simp [run] at ended), fun fault' b' ended rest => ?_⟩
            simp only [run, Prod.mk.injEq] at ended
            obtain ⟨-, rfl⟩ := ended
            rcases fails fault b₂ run with rfl | ⟨b₁, id, tasks, entered, leads⟩
            · exact ⟨_, .single (.perform performed)⟩
            · obtain ⟨left, scanned⟩ := leads_visit_error (c := c) entered leads rest
              exact ⟨left, .head (.perform performed) scanned⟩
          · obtain ⟨b₁, tasks, entered, leads⟩ := succeeds id b₂ run
            refine ⟨fun b' ended rest => ?_, fun fault b' ended => by simp [run] at ended⟩
            simp only [run, Prod.mk.injEq, true_and] at ended
            rw [← ended]
            exact .head (.perform performed) (leads_visit entered leads rest)

theorem performs_scanStatement {scanPath : Path → Scan Nat}
    (visits : ∀ path, Visits tree (scanPath path) path) (id : Nat) (path : Path)
    (s : Statement) : Performs tree (scanStatement scanPath id path s) (s.tasks id path) := by
  cases s with
  | code number line lexed => exact performs_update fun b => rfl
  | imports number lines forms topLevel =>
      have each : ∀ form ∈ forms, Performs tree (bindImport scanPath id path number topLevel form)
          [.meet ⟨id, path, number, topLevel, form⟩] :=
        fun form _ => performs_bindImport visits ⟨id, path, number, topLevel, form⟩
      have all := performs_forM each
      rw [← List.map_eq_flatMap] at all
      exact all

/-- One unrolling of the scan of a file, as an equation. -/
theorem scanFile_succ (depth : Nat) (given : Path) :
    scanFile tree (depth + 1) given = (do
      match (← get).graph.byPath? (tree.canonical given) with
      | some id => return id
      | none =>
        match tree.readText (tree.canonical given) with
        | .error cause => throw (.unreadableSource given (tree.canonical given) cause)
        | .ok source =>
          let id ← modifyGet fun b => ((openModule (tree.canonical given) source b).2,
            (openModule (tree.canonical given) source b).1)
          (statements source).forM (scanStatement (scanFile tree depth) id (tree.canonical given))
          return id) := by
  rfl

/-- What the scan of a file does, with depth left: a file that is there is not read. -/
theorem outcome_scanFile_succ (depth : Nat) (given : Path) (b : Build) :
    (scanFile tree (depth + 1) given).outcome b =
      match b.graph.byPath? (tree.canonical given) with
      | some id => (.ok id, b)
      | none =>
        match tree.readText (tree.canonical given) with
        | .error cause => (.error (.unreadableSource given (tree.canonical given) cause), b)
        | .ok source =>
          match ((statements source).forM (scanStatement (scanFile tree depth)
            (openModule (tree.canonical given) source b).2 (tree.canonical given))).outcome
            (openModule (tree.canonical given) source b).1 with
          | (.ok (), b') => (.ok (openModule (tree.canonical given) source b).2, b')
          | (.error fault, b') => (.error fault, b') := by
  rw [scanFile_succ, Scan.outcome_bind, Scan.outcome_get]
  dsimp only
  cases known : b.graph.byPath? (tree.canonical given) with
  | some id => rfl
  | none =>
      cases read : tree.readText (tree.canonical given) with
      | error cause => rfl
      | ok source =>
          simp only [Scan.outcome_bind, Scan.outcome_modifyGet]
          generalize Scan.outcome _ _ = result
          rcases result with ⟨fault | ⟨⟩, b'⟩ <;> rfl

/-- **The scan of a file does what the agenda of the file does.**  The induction is on
the depth that is left; a scan with none left has done nothing. -/
theorem visits_scanFile (depth : Nat) : ∀ given, Visits tree (scanFile tree depth given) given := by
  induction depth with
  | zero =>
      intro given b
      refine ⟨fun id b' ended => (by cases ended), fun fault b' ended => ?_⟩
      cases ended
      exact Or.inl rfl
  | succ depth ih =>
      intro given b
      rw [outcome_scanFile_succ]
      cases known : b.graph.byPath? (tree.canonical given) with
      | some id =>
          have entered : enter tree given b = .ok (b, id, []) := by simp [enter, known]
          refine ⟨fun id' b' ended => ?_, fun fault b' ended => (by cases ended)⟩
          cases ended
          exact ⟨b, [], entered, fun rest => .refl⟩
      | none =>
          cases read : tree.readText (tree.canonical given) with
          | error cause =>
              refine ⟨fun id b' ended => (by cases ended), fun fault b' ended => ?_⟩
              cases ended
              exact Or.inl rfl
          | ok source =>
              dsimp only
              rcases opens : openModule (tree.canonical given) source b with ⟨b₁, id⟩
              have entered : enter tree given b =
                  .ok (b₁, id, fileTasks id (tree.canonical given) source) := by
                simp [enter, known, read, opens]
              have each : ∀ s ∈ statements source, Performs tree
                  (scanStatement (scanFile tree depth) id (tree.canonical given) s)
                  (s.tasks id (tree.canonical given)) :=
                fun s _ => performs_scanStatement ih id (tree.canonical given) s
              obtain ⟨succeeds, fails⟩ := performs_forM each b₁
              dsimp only
              rcases scanned : ((statements source).forM (scanStatement (scanFile tree depth)
                id (tree.canonical given))).outcome b₁ with ⟨fault | ⟨⟩, b₂⟩
              · refine ⟨fun id b' ended => (by cases ended), fun fault' b' ended => ?_⟩
                cases ended
                exact Or.inr ⟨_, _, _, entered, fails fault _ scanned⟩
              · refine ⟨fun id b' ended => ?_, fun fault b' ended => (by cases ended)⟩
                cases ended
                exact ⟨_, _, entered, succeeds _ scanned⟩

end Simulation

/-! ### Whole scans -/

theorem scanPath_eq (tree : FileTree) (entry : Path) (start : Build) :
    start.scanPath tree entry =
      (scanFile tree (start.table.entries.length + 2) entry).outcome start := by
  change (scan tree entry).outcome start = _
  simp only [scan, Scan.outcome_bind, Scan.outcome_get]

/-- **A scan that succeeds empties the agenda of its entry.** -/
theorem scanPath_ok_encounter {tree : FileTree} {entry : Path} {start b : Build} {id : Nat}
    (scanned : start.scanPath tree entry = (.ok id, b)) :
    ∃ b₁ tasks, enter tree entry start = .ok (b₁, id, tasks) ∧ Leads tree ⟨b₁, tasks⟩ ⟨b, []⟩ := by
  rw [scanPath_eq] at scanned
  obtain ⟨b₁, tasks, entered, leads⟩ := (visits_scanFile _ entry start).1 id b scanned
  have whole := leads []
  rw [List.append_nil] at whole
  exact ⟨b₁, tasks, entered, whole⟩

/-- **A scan leaves the build of one of its moments**, or the build it found. -/
theorem scanPath_encounter (tree : FileTree) (entry : Path) (start : Build) :
    (start.scanPath tree entry).2 = start ∨
      ∃ left, Encounter tree entry start ⟨(start.scanPath tree entry).2, left⟩ := by
  rcases scanned : start.scanPath tree entry with ⟨fault | id, b⟩
  · rw [scanPath_eq] at scanned
    rcases (visits_scanFile _ entry start).2 fault b scanned with
      same | ⟨b₁, id, tasks, entered, leads⟩
    · exact Or.inl same
    · obtain ⟨left, reached⟩ := leads []
      rw [List.append_nil] at reached
      exact Or.inr ⟨left, b₁, id, tasks, entered, reached⟩
  · obtain ⟨b₁, tasks, entered, leads⟩ := scanPath_ok_encounter scanned
    exact Or.inr ⟨[], b₁, id, tasks, entered, leads⟩

end Amalgam
