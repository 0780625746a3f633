import Amalgam.Build
import Mathlib.Data.List.Basic

/-!
# Conflicts between names from outside

Combined modules share one scope, so two modules that bind one name to different things
outside the program get in each other's way.  A build keeps one record for each such name:
what it was bound to, and by which module, when it was bound **first**.  Each later
binding is compared with that record and with nothing else.

What a report tells about the whole **history** of bindings follows from one invariant:
after any history, the record of a name is its first binding in the history
(`Build.find?_externalNames_bindAllOutside`).  So a report always stands for a conflict in
the history, but not every conflict is reported: the module that bound a name first can
bind it to something else without a report, whatever others have bound it to in the
meantime.

## Main statements

* `ExternalBinding`, `Build.bindAllOutside` — histories
* `Build.find?_externalNames_bindAllOutside` — the record of a name
* `conflict_reported_iff_first`, `not_reportsEveryConflict_sharedBuild`
-/

namespace Amalgam

/-! ### Histories -/

/-- A module binds a name to something outside the program, in a line of a file. -/
structure ExternalBinding where
  importer : Nat
  name : String
  target : String
  path : Path
  line : Nat

namespace ExternalBinding

/-- The record of a name that is bound so first. -/
def record (e : ExternalBinding) : ExternalName :=
  ⟨e.name, e.target, e.importer⟩

/-- **Two bindings conflict**: different modules bind one name to different things. -/
def Conflicts (e c : ExternalBinding) : Prop :=
  e.name = c.name ∧ e.importer ≠ c.importer ∧ e.target ≠ c.target

/-- The binding is the first of its name in the history. -/
def IsFirstIn (e : ExternalBinding) (history : List ExternalBinding) : Prop :=
  ∃ passed rest, history = passed ++ e :: rest ∧ ∀ other ∈ passed, other.name ≠ e.name

theorem isFirstIn_iff_find? {e : ExternalBinding} {history : List ExternalBinding} :
    e.IsFirstIn history ↔ history.find? (·.name == e.name) = some e := by
  rw [List.find?_eq_some_iff_append]
  constructor
  · rintro ⟨passed, rest, whole, others⟩
    refine ⟨beq_self_eq_true _, passed, rest, whole, fun other member => ?_⟩
    simpa using others other member
  · rintro ⟨-, passed, rest, whole, others⟩
    refine ⟨passed, rest, whole, fun other member => ?_⟩
    simpa using others other member

end ExternalBinding

namespace Build

/-- Records a binding. -/
def bindOutside (b : Build) (c : ExternalBinding) : Build :=
  b.bindExternalName c.importer c.name c.target c.path c.line

/-- Records a history of bindings. -/
def bindAllOutside (b : Build) (history : List ExternalBinding) : Build :=
  history.foldl bindOutside b

/-- The report of a binding that conflicts with an earlier one. -/
def conflictReport (b : Build) (first c : ExternalBinding) : Diagnostic :=
  ⟨.nameConflict c.name c.target first.target (b.graph.nameOf first.importer), some c.path,
    some c.line⟩

/-! ### One binding -/

theorem bindOutside_of_none {b : Build} {c : ExternalBinding}
    (unbound : b.externalNames.find? (·.name == c.name) = none) :
    b.bindOutside c = { b with externalNames := b.externalNames ++ [c.record] } := by
  rw [bindOutside, bindExternalName, unbound]
  rfl

theorem bindOutside_of_some {b : Build} {c : ExternalBinding} {first : ExternalName}
    (bound : b.externalNames.find? (·.name == c.name) = some first) :
    b.bindOutside c =
      if first.owner ≠ c.importer ∧ first.target ≠ c.target then
        b.reportAt (.nameConflict c.name c.target first.target (b.graph.nameOf first.owner))
          c.path c.line
      else b := by
  rw [bindOutside, bindExternalName, bound]

/-- Bindings change no module. -/
theorem graph_bindOutside (b : Build) (c : ExternalBinding) :
    (b.bindOutside c).graph = b.graph := by
  cases bound : b.externalNames.find? (·.name == c.name) with
  | none => rw [bindOutside_of_none bound]
  | some first =>
      rw [bindOutside_of_some bound]
      split <;> rfl

/-- **The first binding of a name is recorded**, and no other. -/
theorem find?_externalNames_bindOutside (b : Build) (c : ExternalBinding) (name : String) :
    (b.bindOutside c).externalNames.find? (·.name == name) =
      (b.externalNames.find? (·.name == name)).or
        (if c.name = name then some c.record else none) := by
  cases bound : b.externalNames.find? (·.name == c.name) with
  | none =>
      rw [bindOutside_of_none bound, List.find?_append]
      by_cases same : c.name = name
      · simp [same, ExternalBinding.record]
      · simp [same, ExternalBinding.record]
  | some first =>
      have kept : (b.bindOutside c).externalNames = b.externalNames := by
        rw [bindOutside_of_some bound]
        split <;> rfl
      rw [kept]
      by_cases same : c.name = name
      · rw [← same, bound, Option.some_or]
      · rw [if_neg same, Option.or_none]

/-! ### A history of bindings -/

theorem graph_bindAllOutside (b : Build) (history : List ExternalBinding) :
    (b.bindAllOutside history).graph = b.graph := by
  induction history generalizing b with
  | nil => rfl
  | cons c rest ih => exact (ih (b.bindOutside c)).trans (b.graph_bindOutside c)

/-- **The record of a name is its first binding in the history**, unless the name had a
record before. -/
theorem find?_externalNames_bindAllOutside (b : Build) (history : List ExternalBinding)
    (name : String) :
    (b.bindAllOutside history).externalNames.find? (·.name == name) =
      (b.externalNames.find? (·.name == name)).or
        ((history.find? (·.name == name)).map ExternalBinding.record) := by
  induction history generalizing b with
  | nil => simp [bindAllOutside]
  | cons c rest ih =>
      have step := ih (b.bindOutside c)
      rw [find?_externalNames_bindOutside, Option.or_assoc] at step
      refine step.trans ?_
      by_cases same : c.name = name
      · simp [same]
      · simp [same]

end Build

/-! ### What is reported -/

/-- **A conflict is reported if and only if it is one with the first binding of the
name.**  Take any history of bindings on a build that has no record of such names, and one
more binding.  It adds to the diagnostics exactly if some binding of the history is the
first of its name there and conflicts with it, and then adds one, which stands at the line
of the new binding and names both targets and the module that was first. -/
theorem conflict_reported_iff_first {b : Build} (unbound : b.externalNames = [])
    (history : List ExternalBinding) (c : ExternalBinding) :
    (((b.bindAllOutside history).bindOutside c).diagnostics ≠
        (b.bindAllOutside history).diagnostics ↔
      ∃ first : ExternalBinding, first.IsFirstIn history ∧ first.Conflicts c) ∧
    ∀ first : ExternalBinding, first.IsFirstIn history → first.Conflicts c →
      ((b.bindAllOutside history).bindOutside c).diagnostics =
        (b.bindAllOutside history).diagnostics ++ [b.conflictReport first c] := by
  have recorded := b.find?_externalNames_bindAllOutside history c.name
  rw [unbound, List.find?_nil, Option.none_or] at recorded
  have adds : ∀ first : ExternalBinding, first.IsFirstIn history → first.Conflicts c →
      ((b.bindAllOutside history).bindOutside c).diagnostics =
        (b.bindAllOutside history).diagnostics ++ [b.conflictReport first c] := by
    rintro first isFirst ⟨named, different⟩
    rw [ExternalBinding.isFirstIn_iff_find?, named] at isFirst
    rw [isFirst, Option.map_some] at recorded
    have apart : first.record.owner ≠ c.importer ∧ first.record.target ≠ c.target := different
    rw [Build.bindOutside_of_some recorded, if_pos apart, Build.graph_bindAllOutside]
    rfl
  refine ⟨⟨fun added => ?_, ?_⟩, adds⟩
  · cases found : history.find? (·.name == c.name) with
    | none =>
        rw [found, Option.map_none] at recorded
        rw [Build.bindOutside_of_none recorded] at added
        exact absurd rfl added
    | some first =>
        have named : first.name = c.name := by simpa using List.find?_some found
        rw [found, Option.map_some] at recorded
        rw [Build.bindOutside_of_some recorded] at added
        split at added
        next different =>
          refine ⟨first, ?_, named, different⟩
          rw [ExternalBinding.isFirstIn_iff_find?, named]
          exact found
        next => exact absurd rfl added
  · rintro ⟨first, isFirst, conflicts⟩ same
    rw [adds first isFirst conflicts] at same
    simp at same

/-! ### A conflict without a report -/

/-- A build with two modules, `a` and `b`. -/
def sharedBuild : Build :=
  { graph := { nodes := [⟨{ name := "a", scope := "a", path := ⟨"/p/a.py"⟩, source := "" }, []⟩,
      ⟨{ name := "b", scope := "b", path := ⟨"/p/b.py"⟩, source := "" }, []⟩] } }

/-- Both modules bind `parse` to `json.loads`. -/
def sharedHistory : List ExternalBinding :=
  [⟨0, "parse", "json.loads", ⟨"/p/b.py"⟩, 1⟩, ⟨1, "parse", "json.loads", ⟨"/p/b.py"⟩, 1⟩]

/-- Module `a` binds `parse` to something else. -/
def reboundParse : ExternalBinding :=
  ⟨0, "parse", "yaml.safe_load", ⟨"/p/b.py"⟩, 2⟩

/-- When module `b` follows, it is reported, with what `a` had first. -/
theorem conflict_reported_iff_first_sharedBuild :
    sharedBuild.externalNames = [] ∧
      ((sharedBuild.bindAllOutside (sharedHistory ++ [reboundParse])).bindOutside
        ⟨1, "parse", "yaml.safe_load", ⟨"/p/b.py"⟩, 3⟩).diagnostics.map Diagnostic.message =
        ["'parse' is bound to 'yaml.safe_load' here but to 'json.loads' in 'a'; the combined " ++
          "file keeps whichever runs last"] := by
  have unbound : sharedBuild.externalNames = [] := rfl
  have added := (conflict_reported_iff_first unbound (sharedHistory ++ [reboundParse])
    ⟨1, "parse", "yaml.safe_load", ⟨"/p/b.py"⟩, 3⟩).2
    ⟨0, "parse", "json.loads", ⟨"/p/b.py"⟩, 1⟩ ⟨[], _, rfl, by simp⟩
    ⟨rfl, by decide, by decide⟩
  refine ⟨unbound, ?_⟩
  rw [added]
  decide +kernel

/-- Every conflict in a history is reported. -/
def Build.ReportsEveryConflict (b : Build) : Prop :=
  ∀ history c, ((b.bindAllOutside history).bindOutside c).diagnostics ≠
      (b.bindAllOutside history).diagnostics ↔
    ∃ e ∈ history, e.Conflicts c

/-- **The module that was first may bind a name anew**: `b` has bound `parse` to
`json.loads`, and there is no report when `a` binds it to `yaml.safe_load`. -/
theorem not_reportsEveryConflict_sharedBuild : ¬ sharedBuild.ReportsEveryConflict := by
  intro reports
  have silent : ((sharedBuild.bindAllOutside sharedHistory).bindOutside reboundParse).diagnostics =
      (sharedBuild.bindAllOutside sharedHistory).diagnostics := by decide +kernel
  have conflict : ∃ e ∈ sharedHistory, e.Conflicts reboundParse :=
    ⟨_, List.mem_cons_of_mem _ List.mem_cons_self, rfl, by decide, by decide⟩
  exact (reports sharedHistory reboundParse).mpr conflict silent

end Amalgam
