import Amalgam.Proofs.DefinitionOrder
import Amalgam.Proofs.SourceLines

/-!
# Directives at the top

A directive to the compiler, `from __future__ import` and what follows, is only valid at
the start of a file.  So a scan records the directives of all modules, and the combined
text begins with them.

What is recorded is every clause that counts as a directive in the text of a module that
was read, and nothing else (`Encounter.hoists`).  The clauses that count are not only
directives: `import __future__ as f` is one too, an ordinary import, and it is written to
the top like the others, in the order in which the scan met them.  If one module has it,
the directives of modules that come later are no longer at the start.

## Main statements

* `Build.Hoists`, `Performed.hoists` — what is recorded and what waits to be
* `sourceLines_write` — the first lines of the combined text
* `directives_lead_iff_no_alias`, `not_directives_lead_aliasTree`
-/

namespace Amalgam

/-! ### Clauses of texts -/

/-- The clauses of a statement. -/
def Statement.forms : Statement → List ImportForm
  | .code .. => []
  | .imports _ _ forms _ => forms

/-- The clauses of a source. -/
def importForms (source : List Char) : List ImportForm :=
  (statements source).flatMap Statement.forms

/-- Some module of the build has the clause in its text. -/
def Build.Imports (b : Build) (form : ImportForm) : Prop :=
  ∃ i m, b.graph.module? i = some m ∧ form ∈ importForms m.source.toList

/-- Where no module comes or goes, no clause does. -/
theorem Build.Keeps.imports_iff {b b' : Build} (kept : b.Keeps b') (form : ImportForm) :
    b'.Imports form ↔ b.Imports form := by
  constructor
  · rintro ⟨i, m', here', member⟩
    obtain ⟨m, here, grows⟩ := kept.earlier here'
    exact ⟨i, m, here, grows.source ▸ member⟩
  · rintro ⟨i, m, here, member⟩
    obtain ⟨m', here', grows⟩ := kept.module here
    exact ⟨i, m', here', grows.source.symm ▸ member⟩

/-- Opening a file adds the clauses of its text. -/
theorem imports_openModule {b : Build} {full : Path} (new : b.graph.byPath? full = none)
    (source : List Char) (form : ImportForm) :
    (openModule full source b).1.Imports form ↔ b.Imports form ∨ form ∈ importForms source := by
  constructor
  · rintro ⟨i, m, here, member⟩
    rcases module?_openModule_cases new here with ⟨-, rfl⟩ | old
    · rw [newModule, String.toList_ofList] at member
      exact Or.inr member
    · exact Or.inl ⟨i, m, old, member⟩
  · rintro (⟨i, m, here, member⟩ | member)
    · obtain ⟨m', here', grows⟩ := (Build.Grows.openModule new source).module here
      exact ⟨i, m', here', grows.source.symm ▸ member⟩
    · refine ⟨b.graph.nodes.length, newModule b full source, ?_, ?_⟩
      · rw [module?_openModule new, if_pos rfl]
      · rw [newModule, String.toList_ofList]
        exact member

/-! ### Clauses that wait -/

/-- The clause that is met next, if the task is to meet one. -/
def Task.pending : Task → List ImportForm
  | .meet c => [c.form]
  | .code .. => []
  | .visit .. => []
  | .arrive .. => []
  | .settle .. => []

/-- The clauses that an agenda has still to meet. -/
def pendingForms (agenda : List Task) : List ImportForm :=
  agenda.flatMap Task.pending

/-- The agenda of a file has all clauses of its text. -/
theorem pendingForms_fileTasks (id : Nat) (path : Path) (source : List Char) :
    pendingForms (fileTasks id path source) = importForms source := by
  rw [pendingForms, fileTasks, List.flatMap_assoc, importForms]
  congr 1
  funext s
  cases s with
  | code number line lexed => rfl
  | imports number lines forms topLevel =>
      simp [Statement.tasks, Statement.forms, List.flatMap_map, Task.pending]

/-! ### What is recorded -/

theorem futures_scanCode (id : Nat) (path : Path) (number : Nat) (lexed : LexedLine) (b : Build) :
    (scanCode id path number lexed b).futures = b.futures := by
  -- `scanCode_induction` says too little here: a step that only notes may record a directive
  have reported : ∀ (forms : List ImportForm) (b : Build),
      (reportJoined path number forms b).futures = b.futures := by
    intro forms b
    unfold reportJoined
    generalize forms.filter _ = joined
    induction joined generalizing b with
    | nil => rfl
    | cons form rest ih => exact ih _
  have declared : ∀ (names : List String) (b : Build),
      (names.foldl (·.declare id ·) b).futures = b.futures := by
    intro names
    induction names with
    | nil => exact fun b => rfl
    | cons name rest ih =>
        intro b
        refine (ih (b.declare id name)).trans ?_
        unfold Build.declare
        split <;> rfl
  exact (reported _ _).trans (declared _ b)

theorem futures_bindModule (id found : Nat) (path : Path) (number : Nat) (form : ImportForm)
    (b : Build) : (bindModule id found path number form b).futures = b.futures := by
  unfold bindModule
  dsimp only
  split
  · split <;> rfl
  · rfl

theorem futures_bindExternal (id : Nat) (path : Path) (number : Nat) (form : ImportForm)
    (topLevel : Bool) (b : Build) :
    (bindExternal id path number form topLevel b).futures = b.futures := by
  unfold bindExternal Build.bindExternalName
  split
  · split
    · split
      · split <;> rfl
      · rfl
    · rfl
  · rfl

/-- **Directives are recorded as they are met**: what is recorded stands in the text of a
module, and what stands there is recorded or waits. -/
structure Build.Hoists (b : Build) (pending : List ImportForm) : Prop where
  recorded : ∀ {clause}, clause ∈ b.futures →
    ∃ form, b.Imports form ∧ form.isFuture = true ∧ form.render = clause
  waiting : ∀ {form}, form ∈ pending → b.Imports form
  complete : ∀ {form}, b.Imports form → form.isFuture = true →
    form.render ∈ b.futures ∨ form ∈ pending

namespace Build.Hoists

/-- Clauses that are no directives may go. -/
theorem pass {b b' : Build} {pending pending' : List ImportForm} (hoists : b.Hoists pending)
    (kept : b.Keeps b') (futures : b'.futures = b.futures) (fewer : pending' ⊆ pending)
    (ordinary : ∀ form ∈ pending, form.isFuture = true → form ∈ pending') : b'.Hoists pending' where
  recorded member := by
    rw [futures] at member
    obtain ⟨form, imports, future, same⟩ := hoists.recorded member
    exact ⟨form, (kept.imports_iff form).mpr imports, future, same⟩
  waiting member := (kept.imports_iff _).mpr (hoists.waiting (fewer member))
  complete imports future := by
    rw [futures]
    refine (hoists.complete ((kept.imports_iff _).mp imports) future).imp_right fun waits => ?_
    exact ordinary _ waits future

/-- A directive that is met is recorded. -/
theorem addFuture {b : Build} {form : ImportForm} {pending : List ImportForm}
    (hoists : b.Hoists (form :: pending)) (future : form.isFuture = true) :
    (b.addFuture form.render).Hoists pending where
  recorded member := by
    rcases mem_insertLast.mp member with old | rfl
    · exact hoists.recorded old
    · exact ⟨form, hoists.waiting List.mem_cons_self, future, rfl⟩
  waiting member := hoists.waiting (List.mem_cons_of_mem _ member)
  complete imports future := by
    rcases hoists.complete imports future with old | waits
    · exact Or.inl (mem_insertLast.mpr (Or.inl old))
    · rcases List.mem_cons.mp waits with rfl | waits
      · exact Or.inl (mem_insertLast.mpr (Or.inr rfl))
      · exact Or.inr waits

/-- The clauses of a file that is opened wait. -/
theorem openModule {b : Build} {pending : List ImportForm} (hoists : b.Hoists pending)
    {full : Path} (new : b.graph.byPath? full = none) (source : List Char) :
    (openModule full source b).1.Hoists (importForms source ++ pending) where
  recorded member := by
    obtain ⟨form, imports, future, same⟩ := hoists.recorded member
    exact ⟨form, (imports_openModule new source form).mpr (Or.inl imports), future, same⟩
  waiting member := by
    refine (imports_openModule new source _).mpr ?_
    rcases List.mem_append.mp member with ofFile | old
    · exact Or.inr ofFile
    · exact Or.inl (hoists.waiting old)
  complete imports future := by
    rcases (imports_openModule new source _).mp imports with old | ofFile
    · exact (hoists.complete old future).imp_right (List.mem_append_right _)
    · exact Or.inr (List.mem_append_left _ ofFile)

end Build.Hoists

/-- **A task records the directive that it meets.** -/
theorem Performed.hoists {tree : FileTree} {b b' : Build} {task : Task} {new rest : List Task}
    (performed : Performed tree b task b' new) (hoists : b.Hoists (pendingForms (task :: rest))) :
    b'.Hoists (pendingForms (new ++ rest)) := by
  have passed : ∀ {c : Clause}, c.Asks b → ∀ form ∈ pendingForms (.meet c :: rest),
      form.isFuture = true → form ∈ pendingForms rest := by
    intro c asks form member future
    rcases List.mem_cons.mp member with rfl | later
    · rw [asks.ordinary] at future
      cases future
    · exact later
  have stays : ∀ form ∈ pendingForms rest, form.isFuture = true → form ∈ pendingForms rest :=
    fun _ member _ => member
  have behind : ∀ form : ImportForm, pendingForms rest ⊆ form :: pendingForms rest :=
    fun form => List.subset_cons_self form _
  cases performed with
  | code id path number lexed =>
      exact hoists.pass (.scanCode id path number lexed b) (futures_scanCode id path number lexed b)
        (List.Subset.refl _) stays
  | future future => exact hoists.addFuture future
  | known asks => exact hoists.pass (.refl b) rfl (behind _) (passed asks)
  | listed asks => exact hoists.pass (.markVisited b _) rfl (behind _) (passed asks)
  | outside asks => exact hoists.pass (.addExternal b _) rfl (behind _) (passed asks)
  | revisit => exact hoists.pass (.refl b) rfl (List.Subset.refl _) stays
  | @opened c path source new =>
      have agenda : pendingForms (fileTasks b.graph.nodes.length (tree.canonical path) source ++
          [.arrive c b.graph.nodes.length] ++ rest) = importForms source ++ pendingForms rest := by
        rw [← pendingForms_fileTasks b.graph.nodes.length (tree.canonical path) source,
          List.append_assoc]
        exact List.flatMap_append
      rw [agenda]
      exact hoists.openModule new source
  | arrive c id => exact hoists.pass (.addName b _ id) rfl (List.Subset.refl _) stays
  | bound c found =>
      exact hoists.pass (.bindModule _ found _ _ _ b) (futures_bindModule _ _ _ _ _ b)
        (List.Subset.refl _) stays
  | boundOutside c =>
      exact hoists.pass (.ofNotes (.bindExternal _ _ _ _ _ b)) (futures_bindExternal _ _ _ _ _ b)
        (List.Subset.refl _) stays

/-- **All through a scan**, from any build that has read and recorded nothing. -/
theorem Encounter.hoists {tree : FileTree} {entry : Path} {start : Build}
    (unread : start.graph.nodes = []) (unrecorded : start.futures = []) {s : Moment}
    (now : Encounter tree entry start s) : s.build.Hoists (pendingForms s.agenda) := by
  have begins : start.Hoists [] := by
    refine ⟨fun member => ?_, fun member => ?_, fun imports => ?_⟩
    · rw [unrecorded] at member
      cases member
    · cases member
    · obtain ⟨i, m, here, -⟩ := imports
      rw [Graph.module?, unread] at here
      cases here
  refine Encounter.induction (motive := fun b agenda => b.Hoists (pendingForms agenda))
    (fun entered => ?_) (fun _ done hoists => (performed_of_perform done).hoists hoists) now
  rcases enter_cases entered with ⟨-, rfl, rfl⟩ | ⟨new, source, -, -, rfl, rfl⟩
  · exact begins
  · rw [pendingForms_fileTasks, ← List.append_nil (importForms source)]
    exact begins.openModule new source

/-! ### Directives as lines -/

/-- The line is a directive. -/
def IsDirective (line : List Char) : Prop :=
  "from __future__ import ".toList <+: line

instance (line : List Char) : Decidable (IsDirective line) :=
  inferInstanceAs (Decidable (_ <+: _))

/-- The four forms that count as directives. -/
theorem ImportForm.isFuture_cases {form : ImportForm} (future : form.isFuture = true) :
    form = .wildcard futureModule ∨ (∃ asked given, form = .symbolAs futureModule asked given) ∨
      (∃ asked, form = .symbol futureModule asked) ∨
      ∃ given, form = .moduleAs futureModule given := by
  rw [isFuture, Bool.and_eq_true, beq_iff_eq] at future
  obtain ⟨named, other⟩ := future
  cases form with
  | wildcard m => exact Or.inl (congrArg _ named)
  | symbolAs m asked given => exact Or.inr (Or.inl ⟨asked, given, by rw [← named]; rfl⟩)
  | symbol m asked => exact Or.inr (Or.inr (Or.inl ⟨asked, by rw [← named]; rfl⟩))
  | moduleAs m given => exact Or.inr (Or.inr (Or.inr ⟨given, by rw [← named]; rfl⟩))
  | module m => cases other

theorem directive_words : "from __future__ import ".toList =
    "from ".toList ++ ImportForm.futureModule.toList ++ " import ".toList := by decide

/-- **One of the four is no directive.** -/
theorem isDirective_render_iff {form : ImportForm} (future : form.isFuture = true) :
    IsDirective form.render.toList ↔ ∀ name, form ≠ .moduleAs ImportForm.futureModule name := by
  rcases ImportForm.isFuture_cases future with
    rfl | ⟨asked, given, rfl⟩ | ⟨asked, rfl⟩ | ⟨given, rfl⟩
  · exact ⟨fun _ name => by simp, fun _ => by decide⟩
  · refine ⟨fun _ name => by simp, fun _ => ?_⟩
    simp only [IsDirective, directive_words, ImportForm.render, String.toList_append,
      List.append_assoc, List.prefix_append_right_inj, List.prefix_append]
  · refine ⟨fun _ name => by simp, fun _ => ?_⟩
    simp only [IsDirective, directive_words, ImportForm.render, String.toList_append,
      List.append_assoc, List.prefix_append_right_inj, List.prefix_append]
  · refine ⟨fun directive => ?_, fun no => absurd rfl (no given)⟩
    obtain ⟨rest, whole⟩ := directive
    have first := congrArg List.head? whole
    simp [ImportForm.render] at first

theorem IsIdentifier.newline_not_mem {s : String} (identifier : IsIdentifier s) :
    '\n' ∉ s.toList := by
  intro member
  have name := isIdentifierText.all identifier '\n' member
  exact absurd name (by decide)

/-- What is written for a clause that counts as a directive is one line. -/
theorem newline_not_mem_render {form : ImportForm} (future : form.isFuture = true)
    (spelled : form.Spelled) : '\n' ∉ form.render.toList := by
  rcases ImportForm.isFuture_cases future with
    rfl | ⟨asked, given, rfl⟩ | ⟨asked, rfl⟩ | ⟨given, rfl⟩
  · decide
  · have one := (spelled asked (by simp [ImportForm.words])).newline_not_mem
    have two := (spelled given (by simp [ImportForm.words])).newline_not_mem
    simp [ImportForm.render, ImportForm.futureModule, one, two]
  · have one := (spelled asked (by simp [ImportForm.words])).newline_not_mem
    simp [ImportForm.render, ImportForm.futureModule, one]
  · have one := (spelled given (by simp [ImportForm.words])).newline_not_mem
    simp [ImportForm.render, ImportForm.futureModule, one]

/-! ### The combined text -/

/-- Written lines are the first lines of a text. -/
theorem sourceLines_flatMap_endLine {lines : List (List Char)}
    (single : ∀ line ∈ lines, '\n' ∉ line) (rest : List Char) :
    sourceLines (lines.flatMap endLine ++ rest) = lines ++ sourceLines rest := by
  induction lines with
  | nil => rfl
  | cons line later ih =>
      have first := single line List.mem_cons_self
      have others := ih fun other member => single other (List.mem_cons_of_mem _ member)
      rw [List.flatMap_cons, endLine, List.append_assoc, List.append_assoc, List.singleton_append,
        sourceLines_append_newline first, others, List.cons_append]

/-- The recorded clauses are the first lines of what is written. -/
theorem sourceLines_write {b : Build} (single : ∀ clause ∈ b.futures, '\n' ∉ clause.toList) :
    ∃ rest, sourceLines b.write = b.futures.map String.toList ++ rest := by
  have singles : ∀ line ∈ b.futures.map String.toList, '\n' ∉ line := by
    intro line member
    obtain ⟨clause, recorded, rfl⟩ := List.mem_map.mp member
    exact single clause recorded
  have top : b.futures.flatMap (fun clause => endLine clause.toList) =
      (b.futures.map String.toList).flatMap endLine := by
    rw [List.flatMap_map]
  rw [Build.write, top, List.append_assoc, sourceLines_flatMap_endLine singles]
  exact ⟨_, rfl⟩

/-- A clause of a text is spelled with identifiers. -/
theorem importForms_spelled {source : List Char} {form : ImportForm}
    (member : form ∈ importForms source) : form.Spelled := by
  obtain ⟨s, read, inside⟩ := List.mem_flatMap.mp member
  have spelled := statements_spelled source s read
  cases s with
  | code => cases inside
  | imports => exact spelled form inside

namespace Combined

/-- The lines of the combined text. -/
def lines (c : Combined) : List (List Char) :=
  sourceLines c.source.toList

/-- **Directives lead the text**: in front of a line that was moved to the top and is a
directive, there are only directives.  Those at the top are as many as were recorded. -/
def DirectivesLead (c : Combined) : Prop :=
  ∀ front line rest, c.lines = front ++ line :: rest →
    front.length < c.build.futures.length → IsDirective line →
    ∀ other ∈ front, IsDirective other

/-- Only the order in which the clauses were recorded matters. -/
theorem directivesLead_iff {c : Combined} {rest : List (List Char)}
    (top : c.lines = c.build.futures.map String.toList ++ rest) :
    c.DirectivesLead ↔ c.build.futures.Pairwise fun first second =>
      IsDirective second.toList → IsDirective first.toList := by
  rw [← List.pairwise_map (f := String.toList) (R := fun first second =>
    IsDirective second → IsDirective first)]
  constructor
  · intro lead
    rw [List.pairwise_iff_getElem]
    intro i j iBound jBound before directive
    -- the text up to the line `j`, which is still among the clauses
    have cut : c.lines = (c.build.futures.map String.toList).take j ++
        (c.build.futures.map String.toList)[j] ::
          ((c.build.futures.map String.toList).drop (j + 1) ++ rest) := by
      rw [top, ← List.cons_append, List.getElem_cons_drop, ← List.append_assoc,
        List.take_append_drop]
    refine lead _ _ _ cut ?_ directive _ ?_
    · rw [List.length_take]
      rw [List.length_map] at jBound ⊢
      omega
    · exact List.mem_take_iff_getElem.mpr ⟨i, by omega, rfl⟩
  · intro ordered front line later split inside directive other member
    have all : c.build.futures.map String.toList <+: c.lines := ⟨rest, top.symm⟩
    have some : front ++ [line] <+: c.lines := ⟨later, by rw [split, List.append_assoc]; rfl⟩
    have short : (front ++ [line]).length ≤ (c.build.futures.map String.toList).length := by
      rw [List.length_append, List.length_map]
      exact inside
    obtain ⟨mid, recorded⟩ := List.prefix_of_prefix_length_le some all short
    rw [← recorded, List.pairwise_append, List.pairwise_append] at ordered
    exact ordered.1.2.2 other member line List.mem_cons_self directive

end Combined

variable {tree : FileTree} {entry : Path} {table : SearchTable} {wildcard : WildcardPolicy}
  {cycles : CyclePolicy} {diagnostics : List Diagnostic} {combined : Combined}

/-- What a combined program has recorded: the clauses of its modules that count as
directives, each as one line. -/
theorem combine_futures
    (built : combine tree entry { table, wildcard, cycles, diagnostics } = .ok combined)
    (clause : String) :
    clause ∈ combined.build.futures ↔
      ∃ form, combined.build.Imports form ∧ form.isFuture = true ∧ form.render = clause := by
  obtain ⟨id, scanned, scan, ended, -⟩ := combine_finished built
  obtain ⟨order, -, graph, -, futures, -⟩ := Build.finish_eq_ok ended
  obtain ⟨b₁, tasks, entered, leads⟩ := scanPath_ok_encounter scan
  have ends : Encounter tree entry { table, wildcard, cycles, diagnostics } ⟨scanned, []⟩ :=
    ⟨b₁, id, tasks, entered, leads⟩
  have hoists : scanned.Hoists [] := ends.hoists rfl rfl
  have imports : ∀ form, combined.build.Imports form ↔ scanned.Imports form := by
    intro form
    simp only [Build.Imports, graph, Graph.module?_link]
  rw [futures]
  constructor
  · intro recorded
    obtain ⟨form, inText, future, same⟩ := hoists.recorded recorded
    exact ⟨form, (imports form).mpr inText, future, same⟩
  · rintro ⟨form, inText, future, rfl⟩
    rcases hoists.complete ((imports form).mp inText) future with recorded | waits
    · exact recorded
    · cases waits

/-- The recorded clauses begin the text. -/
theorem combine_lines
    (built : combine tree entry { table, wildcard, cycles, diagnostics } = .ok combined) :
    ∃ rest, combined.lines = combined.build.futures.map String.toList ++ rest := by
  obtain ⟨-, -, -, -, source⟩ := combine_finished built
  rw [Combined.lines, source, String.toList_ofList]
  refine sourceLines_write fun clause recorded => ?_
  obtain ⟨form, ⟨i, m, -, member⟩, future, rfl⟩ := (combine_futures built clause).mp recorded
  exact newline_not_mem_render future (importForms_spelled member)

/-- **Directives lead the text as long as no module renames the module of directives.**
Take any program that was combined.

* Its text begins with the clauses that were recorded, one a line, and these are the
  clauses of its modules that count as directives.
* All of them are directives, with no other line in front of one, if and only if no module
  has a clause `import __future__ as name`.
* With such clauses, directives still lead if and only if all of them come after the last
  directive. -/
theorem directives_lead_iff_no_alias {tree : FileTree} {entry : Path} {table : SearchTable}
    {wildcard : WildcardPolicy} {cycles : CyclePolicy} {diagnostics : List Diagnostic}
    {combined : Combined}
    (built : combine tree entry { table, wildcard, cycles, diagnostics } = .ok combined) :
    (∃ rest, combined.lines = combined.build.futures.map String.toList ++ rest) ∧
    (∀ clause, clause ∈ combined.build.futures ↔
      ∃ form, combined.build.Imports form ∧ form.isFuture = true ∧ form.render = clause) ∧
    ((∀ clause ∈ combined.build.futures, IsDirective clause.toList) ∧ combined.DirectivesLead ↔
      ∀ name, ¬ combined.build.Imports (.moduleAs ImportForm.futureModule name)) ∧
    (combined.DirectivesLead ↔ combined.build.futures.Pairwise fun first second =>
      IsDirective second.toList → IsDirective first.toList) := by
  have recorded := combine_futures built
  obtain ⟨rest, top⟩ := combine_lines built
  have lead := Combined.directivesLead_iff top
  refine ⟨⟨rest, top⟩, recorded, ⟨?_, fun none => ?_⟩, lead⟩
  · rintro ⟨directives, -⟩ name imports
    have future : (ImportForm.moduleAs ImportForm.futureModule name).isFuture = true := rfl
    have directive := directives _ ((recorded _).mpr ⟨_, imports, future, rfl⟩)
    exact (isDirective_render_iff future).mp directive name rfl
  · have directives : ∀ clause ∈ combined.build.futures, IsDirective clause.toList := by
      intro clause member
      obtain ⟨form, imports, future, rfl⟩ := (recorded clause).mp member
      refine (isDirective_render_iff future).mpr fun name same => ?_
      exact none name (same ▸ imports)
    refine ⟨directives, lead.mpr ?_⟩
    exact List.pairwise_of_forall_mem_list fun first member _ _ _ => directives first member

/-- A program whose modules both have a directive, and one of which also has the module of
directives as it is. -/
def directiveTree : FileTree where
  entries :=
    [(["proj"], .dir),
     (["proj", "main.py"],
       .file (encodeUtf8 "from __future__ import annotations\nimport a\n".toList) false),
     (["proj", "a.py"],
       .file (encodeUtf8 "import __future__\nfrom __future__ import division as d\n".toList) false)]
  workdir := ["proj"]

/-- What the directory `proj` offers. -/
def directiveTable : SearchTable :=
  ⟨[("a", ⟨"/proj/a.py"⟩), ("main", ⟨"/proj/main.py"⟩)]⟩

/-- The directives of both modules lead. -/
theorem directives_lead_iff_no_alias_directiveTree :
    ∃ combined, combine directiveTree ⟨"/proj/main.py"⟩ { table := directiveTable } = .ok combined ∧
      combined.build.futures =
        ["from __future__ import annotations", "from __future__ import division as d"] ∧
      combined.DirectivesLead ∧
      ∀ name, ¬ combined.build.Imports (.moduleAs ImportForm.futureModule name) := by
  have computed : ∃ combined ∈
      (combine directiveTree ⟨"/proj/main.py"⟩ { table := directiveTable }).toOption,
      combined.build.futures =
        ["from __future__ import annotations", "from __future__ import division as d"] := by
    decide +kernel
  obtain ⟨combined, given, recorded⟩ := computed
  have built := eq_ok_of_mem_toOption given
  obtain ⟨-, -, noAlias, lead⟩ := directives_lead_iff_no_alias built
  have leading : combined.DirectivesLead := lead.mpr (by rw [recorded]; decide)
  refine ⟨combined, built, recorded, leading, noAlias.mp ⟨?_, leading⟩⟩
  rw [recorded]
  decide

/-- A program in which one module renames the module of directives and another one, read
later, has a directive. -/
def aliasTree : FileTree where
  entries :=
    [(["proj"], .dir),
     (["proj", "main.py"], .file (encodeUtf8 "import a\nimport b\n".toList) false),
     (["proj", "a.py"], .file (encodeUtf8 "import __future__ as f\n".toList) false),
     (["proj", "b.py"], .file (encodeUtf8 "from __future__ import annotations\n".toList) false)]
  workdir := ["proj"]

/-- What the directory `proj` offers. -/
def aliasTable : SearchTable :=
  ⟨[("a", ⟨"/proj/a.py"⟩), ("b", ⟨"/proj/b.py"⟩), ("main", ⟨"/proj/main.py"⟩)]⟩

/-- The renaming import is recorded with the directives, and in front of one. -/
theorem not_directives_lead_aliasTree :
    ∃ combined, combine aliasTree ⟨"/proj/main.py"⟩ { table := aliasTable } = .ok combined ∧
      ¬ (∀ clause ∈ combined.build.futures, IsDirective clause.toList) ∧
      ¬ combined.DirectivesLead := by
  have computed : ∃ combined ∈
      (combine aliasTree ⟨"/proj/main.py"⟩ { table := aliasTable }).toOption,
      combined.build.futures =
        ["import __future__ as f", "from __future__ import annotations"] := by
    decide +kernel
  obtain ⟨combined, given, recorded⟩ := computed
  have built := eq_ok_of_mem_toOption given
  obtain ⟨rest, top⟩ := combine_lines built
  refine ⟨combined, built, ?_, ?_⟩
  · rw [recorded]
    decide
  · rw [Combined.directivesLead_iff top, recorded]
    decide

end Amalgam
