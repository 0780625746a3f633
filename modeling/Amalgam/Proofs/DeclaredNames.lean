import Amalgam.Proofs.Growth

/-!
# A scanned module declares the names of its lines

A scan opens a module before it reads any of its statements, and goes through those of other
files in between.  What holds at every moment is that each line of code of a module was
recorded or waits on the agenda (`Build.Records`).  A scan that succeeds has emptied the
agenda, so all modules declare what their lines declare.

## Main statements

* `contains_own_scanCode` — what recording a line does
* `Performed.records`, `Encounter.records`
-/

namespace Amalgam

/-! ### Recording a line -/

theorem Build.Keeps.declareAll (id : Nat) (names : List String) (b : Build) :
    b.Keeps (names.foldl (·.declare id ·) b) := by
  induction names generalizing b with
  | nil => exact .refl b
  | cons name rest ih => exact (Build.Keeps.declare b id name).trans (ih _)

/-- Names that are declared one after the other are all declared. -/
theorem contains_own_declareAll {id : Nat} (names : List String) {b : Build} {m : Module}
    (here : (names.foldl (·.declare id ·) b).graph.module? id = some m) :
    ∀ name ∈ names, m.symbols.own.contains name = true := by
  induction names generalizing b with
  | nil => simp
  | cons first rest ih =>
      intro name member
      rcases List.mem_cons.mp member with rfl | later
      · obtain ⟨old, there, grows⟩ :=
          (Build.Keeps.declareAll id rest (b.declare id name)).earlier here
        refine grows.own name ?_
        obtain ⟨before, found, -⟩ := (Build.Keeps.declare b id name).earlier there
        rw [declare_of_module found] at there
        rcases module?_modify_cases there with ⟨-, module, -, rfl⟩ | ⟨other, -⟩
        · change ((module.symbols.own.insert name (qualify module.scope name)).find? name).isSome
          rw [NameMap.find?_insert, if_pos rfl]
          rfl
        · exact absurd rfl other
      · exact ih here name later

/-- **Recording a line declares its names** in the module of the line. -/
theorem contains_own_scanCode {id : Nat} {path : Path} {number : Nat} {lexed : LexedLine}
    {b : Build} {m : Module} (here : (scanCode id path number lexed b).graph.module? id = some m) :
    ∀ name ∈ declaredNames lexed, m.symbols.own.contains name = true := by
  have noted := OnlyNotes.reportJoined path number (joinedForms lexed)
    ((declaredNames lexed).foldl (·.declare id ·) b)
  rw [scanCode, noted.graph] at here
  exact contains_own_declareAll (declaredNames lexed) here

/-! ### Recorded or waiting -/

/-- **Each line of code was recorded or waits.** -/
def Build.Records (b : Build) (agenda : List Task) : Prop :=
  ∀ i m, b.graph.module? i = some m → ∀ number line lexed,
    .code number line lexed ∈ statements m.source.toList →
      (∀ name ∈ declaredNames lexed, m.symbols.own.contains name = true) ∨
      ∃ path, .code i path number lexed ∈ agenda

namespace Build.Records

variable {b : Build} {agenda agenda' : List Task}

/-- Lines that wait may go if they are recorded. -/
theorem pass {b' : Build} (records : b.Records agenda) (kept : b.Keeps b')
    (done : ∀ i path number lexed, .code i path number lexed ∈ agenda →
      .code i path number lexed ∈ agenda' ∨ ∀ m, b'.graph.module? i = some m →
        ∀ name ∈ declaredNames lexed, m.symbols.own.contains name = true) :
    b'.Records agenda' := by
  intro i m here number line lexed stands
  obtain ⟨old, there, grows⟩ := kept.earlier here
  rw [grows.source] at stands
  rcases records i old there number line lexed stands with recorded | ⟨path, waits⟩
  · exact Or.inl fun name member => grows.own name (recorded name member)
  · rcases done i path number lexed waits with still | declared
    · exact Or.inr ⟨path, still⟩
    · exact Or.inl (declared m here)

/-- The lines of a file that is opened wait. -/
theorem openModule (records : b.Records agenda) {full : Path}
    (new : b.graph.byPath? full = none) (source : List Char) (later : List Task) :
    (openModule full source b).1.Records
      (fileTasks b.graph.nodes.length full source ++ later ++ agenda) := by
  intro i m here number line lexed stands
  rcases module?_openModule_cases new here with ⟨rfl, rfl⟩ | old
  · refine Or.inr ⟨full, List.mem_append_left _ (List.mem_append_left _ ?_)⟩
    rw [newModule, String.toList_ofList] at stands
    exact List.mem_flatMap.mpr ⟨_, stands, List.mem_singleton_self _⟩
  · refine (records i m old number line lexed stands).imp_right fun waiting => ?_
    obtain ⟨path, waits⟩ := waiting
    exact ⟨path, List.mem_append_right _ waits⟩

end Build.Records

/-- **A task records its line**, and keeps what was recorded or waits. -/
theorem Performed.records {tree : FileTree} {b b' : Build} {task : Task} {new rest : List Task}
    (performed : Performed tree b task b' new) (records : b.Records (task :: rest)) :
    b'.Records (new ++ rest) := by
  -- a task that is no line goes without a trace
  have passed : ∀ {b' : Build} {task : Task} (new : List Task), b.Records (task :: rest) →
      b.Keeps b' → (∀ i path number lexed, task ≠ .code i path number lexed) →
      b'.Records (new ++ rest) := by
    intro b' task new records kept other
    refine records.pass kept fun i path number lexed member => Or.inl ?_
    rcases List.mem_cons.mp member with rfl | later
    · exact absurd rfl (other i path number lexed)
    · exact List.mem_append_right _ later
  cases performed with
  | code id path number lexed =>
      refine records.pass (.scanCode id path number lexed b) fun i path' number' lexed' member => ?_
      rcases List.mem_cons.mp member with same | later
      · cases same
        exact Or.inr fun m here => contains_own_scanCode here
      · exact Or.inl later
  | future => exact passed _ records (.ofNotes (.addFuture b _)) (by simp)
  | known => exact passed _ records (.refl b) (by simp)
  | listed => exact passed _ records (.markVisited b _) (by simp)
  | outside => exact passed _ records (.addExternal b _) (by simp)
  | revisit => exact passed _ records (.refl b) (by simp)
  | @opened c path source absent =>
      have others : b.Records rest := passed [] records (.refl b) (by simp)
      exact others.openModule absent source [.arrive c b.graph.nodes.length]
  | arrive c id => exact passed _ records (.addName b _ id) (by simp)
  | bound c found => exact passed _ records (.bindModule _ found _ _ _ b) (by simp)
  | boundOutside c => exact passed _ records (.ofNotes (.bindExternal _ _ _ _ _ b)) (by simp)

/-- **All through a scan**, from any build that has no modules. -/
theorem Encounter.records {tree : FileTree} {entry : Path} {start : Build}
    (unread : start.graph.nodes = []) {s : Moment} (now : Encounter tree entry start s) :
    s.build.Records s.agenda := by
  have begins : start.Records [] := by
    intro i m here
    rw [Graph.module?, unread] at here
    cases here
  refine Encounter.induction (motive := fun b agenda => b.Records agenda)
    (fun entered => ?_) (fun _ done records => (performed_of_perform done).records records) now
  rcases enter_cases entered with ⟨-, rfl, rfl⟩ | ⟨new, source, -, rfl, rfl, rfl⟩
  · exact begins
  · have opened := begins.openModule new source []
    rw [List.append_nil, List.append_nil] at opened
    exact opened

end Amalgam
