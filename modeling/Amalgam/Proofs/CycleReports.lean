import Amalgam.Proofs.CycleBreaking

/-!
# Reports of ignored imports

Under the cutting policy a build ends with an order and with one report for each import
that was ignored.  The report says that the imported module is emitted first.

It never is.  An import is ignored when it leads back to the stack of the walk, so the
imported module is still waiting for the importing one and is written behind it
(`Graph.order_broken`).  The reports are right only where there is nothing to report.

## Main statements

* `Build.finish_cut` — the cutting policy always ends a build
* `cycle_reports_true_iff_acyclic`, `not_cycle_reports_true_circleBuild`
-/

namespace Amalgam

namespace Build

/-- An ignored import is reported: there is a diagnostic about the file that has it, which
says that the imported module is emitted first. -/
def Reports (b : Build) (e : Nat × Nat) : Prop :=
  ∃ importer imported, b.graph.module? e.1 = some importer ∧
    b.graph.module? e.2 = some imported ∧
    ∃ d ∈ b.diagnostics, d.path = some importer.path ∧
      d.message = "circular import '" ++ importer.name ++ "' -> '" ++ imported.name ++
        "' ignored; '" ++ imported.name ++ "' is emitted first"

/-- The first module is emitted, and before the second. -/
def Emits (b : Build) (first second : Nat) : Prop :=
  first ∈ b.emissionOrder ∧ b.emissionOrder.idxOf first < b.emissionOrder.idxOf second

/-- **The cutting policy always ends a build**, with the order of the linked graph and one
more diagnostic for each dropped edge. -/
theorem finish_cut {b : Build} (cut : b.cycles = .cut) (indexed : b.graph.IndexValid) :
    b.finish.1 = .ok () ∧ b.finish.2.graph = b.graph.link ∧
      ∃ order, b.graph.link.order .cut = .ok order ∧ b.finish.2.order = some order ∧
        b.finish.2.diagnostics =
          b.diagnostics ++ order.broken.map (cycleDiagnostic b.graph.link) := by
  obtain ⟨order, ordered⟩ := Graph.exists_order_cut (Graph.simpleEdges_link indexed)
  simp only [finish, cut, ordered]
  exact ⟨trivial, trivial, order, rfl, rfl, rfl⟩

/-- A recorded diagnostic reports the dropped edge that it was made for. -/
theorem reports_of_mem {b : Build} {e : Nat × Nat} (inside : e.1 < b.graph.nodes.length)
    (inside' : e.2 < b.graph.nodes.length)
    (recorded : cycleDiagnostic b.graph e ∈ b.diagnostics) : b.Reports e := by
  obtain ⟨importer, here⟩ := Option.isSome_iff_exists.mp (Graph.module?_isSome_iff.mpr inside)
  obtain ⟨imported, there⟩ := Option.isSome_iff_exists.mp (Graph.module?_isSome_iff.mpr inside')
  have name : b.graph.nameOf e.1 = importer.name := by rw [Graph.nameOf, here]; rfl
  have name' : b.graph.nameOf e.2 = imported.name := by rw [Graph.nameOf, there]; rfl
  refine ⟨importer, imported, here, there, cycleDiagnostic b.graph e, recorded, ?_, ?_⟩
  · rw [cycleDiagnostic, here]
    rfl
  · rw [← name, ← name']
    rfl

end Build

/-- **Reports of ignored imports are right only if there are none.**  Every build ends
under the cutting policy.  Each import it ignored is reported with the imported module as
the one that is emitted first, and in the order the importing module comes first; so all
reports are right if and only if the graph has no cycle. -/
theorem cycle_reports_true_iff_acyclic {b : Build} (cut : b.cycles = .cut)
    (indexed : b.graph.IndexValid) :
    b.finish.1 = .ok () ∧ ∃ order, b.finish.2.order = some order ∧
      (∀ e ∈ order.broken, b.finish.2.Reports e ∧ b.finish.2.Emits e.1 e.2) ∧
      ((∀ e ∈ order.broken, b.finish.2.Reports e ∧ b.finish.2.Emits e.2 e.1) ↔
        Graph.Acyclic b.finish.2.graph.Edge) := by
  have simple := Graph.simpleEdges_link indexed
  obtain ⟨succeeds, linked, order, ordered, settled, diagnostics⟩ := Build.finish_cut cut indexed
  obtain ⟨-, dropped⟩ := Graph.order_broken simple ordered
  have emission : b.finish.2.emissionOrder = order.modules := by
    rw [Build.emissionOrder, settled]
    rfl
  have reversed : ∀ e ∈ order.broken, b.finish.2.Reports e ∧ b.finish.2.Emits e.1 e.2 := by
    intro e member
    obtain ⟨edge, -, before⟩ := dropped e member
    constructor
    · apply Build.reports_of_mem
      · rw [linked]
        exact edge.lt_length
      · rw [linked]
        exact simple.valid e.1 e.2 edge
      · rw [linked, diagnostics]
        exact List.mem_append_right _ (List.mem_map_of_mem member)
    · rw [Build.Emits, emission]
      exact ⟨List.idxOf_lt_length_iff.mp (before.trans_le List.idxOf_le_length), before⟩
  refine ⟨succeeds, order, settled, reversed, fun right => ?_, fun acyclic e member => ?_⟩
  · have none : order.broken = [] := by
      refine List.eq_nil_iff_forall_not_mem.mpr fun e member => ?_
      exact Nat.lt_asymm (reversed e member).2.2 (right e member).2.2
    rw [linked]
    exact Graph.acyclic_of_unbroken simple ordered none
  · rw [linked] at acyclic
    obtain ⟨edge, back, -⟩ := dropped e member
    exact absurd (Relation.TransGen.head' edge back) (acyclic e.1)

/-- A program in which `a` and `b` import each other. -/
def circleTree : FileTree where
  entries :=
    [(["proj"], .dir),
     (["proj", "main.py"], .file (encodeUtf8 "import a\n".toList) false),
     (["proj", "a.py"], .file (encodeUtf8 "import b\nA = 1\n".toList) false),
     (["proj", "b.py"], .file (encodeUtf8 "import a\nB = 2\n".toList) false)]
  workdir := ["proj"]

/-- The program, read under the cutting policy. -/
def circleBuild : Build :=
  (Build.scanPath
    { table := ⟨[("a", ⟨"/proj/a.py"⟩), ("b", ⟨"/proj/b.py"⟩), ("main", ⟨"/proj/main.py"⟩)]⟩
      cycles := .cut } circleTree ⟨"/proj/main.py"⟩).2

/-- `b` is emitted before `a`, and its import of `a` is reported. -/
theorem finish_circleBuild :
    circleBuild.cycles = .cut ∧
      (∀ e ∈ circleBuild.graph.index, e.2 < circleBuild.graph.nodes.length) ∧
      circleBuild.finish.1 = .ok () ∧
      circleBuild.finish.2.order = some ⟨[2, 1, 0], [(2, 1)]⟩ ∧
      circleBuild.finish.2.diagnostics.map Diagnostic.message =
        ["circular import 'b' -> 'a' ignored; 'a' is emitted first"] := by
  decide +kernel

/-- The importing module comes first. -/
theorem cycle_reports_true_iff_acyclic_circleBuild :
    circleBuild.cycles = .cut ∧ circleBuild.graph.IndexValid ∧
      circleBuild.finish.2.Reports (2, 1) ∧ circleBuild.finish.2.Emits 2 1 := by
  obtain ⟨cut, inside, -, computed, -⟩ := finish_circleBuild
  have indexed : circleBuild.graph.IndexValid := Graph.indexValid_of_forall_mem inside
  obtain ⟨-, order, settled, reversed, -⟩ := cycle_reports_true_iff_acyclic cut indexed
  rw [computed] at settled
  cases settled
  exact ⟨cut, indexed, reversed (2, 1) List.mem_cons_self⟩

/-- The report says that `a` is emitted first, and it is not. -/
theorem not_cycle_reports_true_circleBuild :
    circleBuild.finish.1 = .ok () ∧ ∃ order, circleBuild.finish.2.order = some order ∧
      circleBuild.finish.2.diagnostics.map Diagnostic.message =
        ["circular import 'b' -> 'a' ignored; 'a' is emitted first"] ∧
      ¬ ∀ e ∈ order.broken,
        circleBuild.finish.2.Reports e ∧ circleBuild.finish.2.Emits e.2 e.1 := by
  obtain ⟨-, -, succeeds, computed, messages⟩ := finish_circleBuild
  refine ⟨succeeds, _, computed, messages, fun right => ?_⟩
  have first : circleBuild.finish.2.Emits 1 2 := (right (2, 1) List.mem_cons_self).2
  rw [Build.Emits, Build.emissionOrder, computed] at first
  exact absurd first (by decide)

end Amalgam
