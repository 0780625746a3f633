import Amalgam.Proofs.FaithfulNames
import Amalgam.Proofs.SearchPrecedence

/-!
# Imports of dotted names

A dotted name in an import stands for a module inside a package, and those are not combined:
such an import is meant to lead outside the program.  Nothing asks whether a name has a dot,
though.  The import goes through the same two questions as any other (`leadsOutside_iff`): does
the name lead to a module already, and does the search table have it?  This module says when
the answers are no.

The table has a dotted name exactly if a searched directory offers one: a file `a.b.py` is the
module `a.b`, and a directory `a.b` can be a package.  A name that the table does not have leads
to a module exactly if a module is called so (`Encounter.knownModule?_eq_none_iff`), which is
the case of the entry `a.b.py`, searched or not, and of a file that a link with an undotted
name leads to.

## Main statements

* `leadsOutside_iff` — when an import leads outside
* `Encounter.namesLead` — the name of a module leads to a module
* `dotted_imports_lead_outside_iff`, and an import that does not
-/

namespace Amalgam

/-- The name has a dot. -/
def HasDot (name : String) : Prop :=
  '.' ∈ name.toList

instance (name : String) : Decidable (HasDot name) :=
  inferInstanceAs (Decidable ('.' ∈ name.toList))

/-! ### Imports that lead outside -/

/-- **An import of the name leads outside**: it finds no module, and the name goes on record. -/
def LeadsOutside (scanPath : Path → Scan Nat) (b : Build) (name : String) : Prop :=
  ∃ b', (resolveModule scanPath name).outcome b = (.ok none, b') ∧ name ∈ b'.externals

/-- **When an import leads outside**: the name is not known, and the table does not have it. -/
theorem leadsOutside_iff {scanPath : Path → Scan Nat} {b : Build} {name : String} :
    LeadsOutside scanPath b name ↔ knownModule? b name = none ∧ b.table.find? name = none := by
  unfold LeadsOutside
  rw [outcome_resolveModule]
  constructor
  · rintro ⟨b', ends, -⟩
    cases known : knownModule? b name with
    | some id =>
        rw [known] at ends
        cases ends
    | none =>
        rw [known] at ends
        cases listed : b.table.find? name with
        | none => exact ⟨rfl, rfl⟩
        | some path =>
            rw [listed] at ends
            -- a file that is scanned gives a module or a fault
            dsimp only at ends
            split at ends <;> cases ends
  · rintro ⟨unknown, unlisted⟩
    rw [unknown, unlisted]
    exact ⟨b.addExternal name, rfl, mem_insertLast.mpr (Or.inr rfl)⟩

/-! ### Names of modules -/

/-- The name of a module leads to a module. -/
def Build.NamesLead (b : Build) : Prop :=
  ∀ i m, b.graph.module? i = some m → (b.graph.byName? m.name).isSome

theorem Build.NamesLead.keep {b b' : Build} (leads : b.NamesLead) (kept : b.Keeps b') :
    b'.NamesLead := by
  intro i m here
  obtain ⟨m', there, growth⟩ := kept.earlier here
  obtain ⟨id, found⟩ := Option.isSome_iff_exists.mp (leads i m' there)
  rw [growth.name, kept.byName found]
  rfl

/-- A file is opened: a module that was called so stays, or else the name leads to the new
one. -/
theorem Build.NamesLead.opened {b : Build} (leads : b.NamesLead) {full : Path}
    (new : b.graph.byPath? full = none) (source : List Char) :
    (openModule full source b).1.NamesLead := by
  intro i m here
  rcases module?_openModule_cases new here with ⟨-, rfl⟩ | old
  · rw [byName?_openModule new]
    simp [newModule]
  · obtain ⟨id, found⟩ := Option.isSome_iff_exists.mp (leads i m old)
    rw [(Build.Grows.openModule new source).byName found]
    rfl

section Scan

variable {tree : FileTree} {entry : Path} {start : Build}

/-- **The name of a module leads to a module at every moment of a scan.** -/
theorem Encounter.namesLead (begins : start.NamesLead) {s : Moment}
    (now : Encounter tree entry start s) : s.build.NamesLead := by
  refine now.build_induction (fun entered => ?_) (fun performed _ leads => ?_)
  · rcases enter_cases entered with ⟨-, rfl, -⟩ | ⟨absent, source, -, -, rfl, -⟩
    · exact begins
    · exact begins.opened absent source
  · rcases performed.keeps_or_opened with kept | ⟨c, path, source, -, absent, rfl⟩
    · exact leads.keep kept
    · exact leads.opened absent source

/-- A name that the table does not have is known exactly if a module is called so. -/
theorem Encounter.knownModule?_eq_none_iff (traced : start.Traced tree) (leads : start.NamesLead)
    {s : Moment} (now : Encounter tree entry start s) {name : String}
    (unlisted : s.build.table.find? name = none) :
    knownModule? s.build name = none ↔
      ∀ i m, s.build.graph.module? i = some m → m.name ≠ name := by
  have invariant := (now.traced traced).1
  constructor
  · rintro unknown i m here rfl
    obtain ⟨id, found⟩ := Option.isSome_iff_exists.mp (now.namesLead leads i m here)
    rw [invariant.knownModule? found] at unknown
    cases unknown
  · intro uncalled
    rw [Option.eq_none_iff_forall_ne_some]
    intro id known
    obtain ⟨m, here, own | ⟨p, -, listed, -⟩⟩ := invariant.named (byName?_of_knownModule? known)
    · exact uncalled id m here own
    · rw [unlisted] at listed
      cases listed

end Scan

/-! ### When dotted imports lead outside -/

/-- **When imports of dotted names lead outside.**  For every file tree, search order, entry,
policy and whatever is reported before:

* no name of the search table has a dot exactly if no searched directory offers a dotted name;
* an import of a dotted name leads outside exactly if no searched directory offers the name and
  no module that was opened is called so;
* so all imports of dotted names lead outside if neither a name of the table nor a file that it
  gives nor the entry is called by a dotted name. -/
theorem dotted_imports_lead_outside_iff {tree : FileTree} (sound : tree.Sound)
    (near : List Path) (mode : SearchMode) (system : List Path) (entry : Path)
    (wildcard : WildcardPolicy) (cycles : CyclePolicy) (diagnostics : List Diagnostic) :
    let table := searchTable tree (searchOrder near mode system)
    ((∀ name, HasDot name → table.find? name = none) ↔
      ∀ dir ∈ searchOrder near mode system, Searches tree dir →
        ∀ name file, Offers tree dir name file → ¬ HasDot name) ∧
    (∀ scanPath b c rest,
      Encounter tree entry { table, wildcard, cycles, diagnostics } ⟨b, .meet c :: rest⟩ →
      c.Asks b → HasDot c.source →
      (LeadsOutside scanPath b c.source ↔
        (∀ dir ∈ searchOrder near mode system, Searches tree dir →
          ∀ file, ¬ Offers tree dir c.source file) ∧
        ∀ i m, b.graph.module? i = some m → m.name ≠ c.source)) ∧
    ((∀ name p, table.find? name = some p →
        ¬ HasDot name ∧ ¬ HasDot (moduleName (tree.canonical p))) →
      ¬ HasDot (moduleName (tree.canonical entry)) →
      ∀ scanPath b c rest,
        Encounter tree entry { table, wildcard, cycles, diagnostics } ⟨b, .meet c :: rest⟩ →
        c.Asks b → HasDot c.source → LeadsOutside scanPath b c.source) := by
  intro table
  have traced := traced_start tree table wildcard cycles diagnostics
  have origins := origins_start tree entry table wildcard cycles diagnostics
  have leads : ({ table, wildcard, cycles, diagnostics } : Build).NamesLead := fun i m here => by
    simp at here
  have outside : ∀ scanPath b c rest,
      Encounter tree entry { table, wildcard, cycles, diagnostics } ⟨b, .meet c :: rest⟩ →
      (LeadsOutside scanPath b c.source ↔ table.find? c.source = none ∧
        ∀ i m, b.graph.module? i = some m → m.name ≠ c.source) := by
    intro scanPath b c rest now
    have same : b.table = table := now.grows.table
    rw [leadsOutside_iff, same, and_comm]
    refine and_congr_right fun unlisted => ?_
    exact now.knownModule?_eq_none_iff traced leads (same ▸ unlisted)
  refine ⟨?_, fun scanPath b c rest now _ _ => ?_, fun plain plainEntry => ?_⟩
  · constructor
    · intro none dir member searches name file offers dotted
      exact (find?_searchTable_eq_none_iff sound).mp (none name dotted) dir member searches file
        offers
    · intro plain name dotted
      refine (find?_searchTable_eq_none_iff sound).mpr fun dir member searches file offers => ?_
      exact plain dir member searches name file offers dotted
  · rw [outside scanPath b c rest now, find?_searchTable_eq_none_iff sound]
  · intro scanPath b c rest now _ dotted
    refine (outside scanPath b c rest now).mpr ⟨?_, fun i m here own => ?_⟩
    · rw [Option.eq_none_iff_forall_ne_some]
      exact fun p listed => (plain _ p listed).1 dotted
    · -- a module is called after its file, which is the entry or one that the table gives
      have from' := (now.grounded traced origins).1
      have same : b.table = table := now.grows.table
      rw [← own, from'.called here] at dotted
      rcases from'.origin here with path | ⟨name, p, -, listed, path⟩
      · exact plainEntry (path ▸ dotted)
      · exact (plain name p (same ▸ listed)).2 (path ▸ dotted)

/-- The directory `proj` has one file, which imports a dotted name. -/
def plainTree : FileTree :=
  FileTree.placeAll []
    [(⟨"/proj/main.py"⟩, .file (encodeUtf8 "import x.y\n".toList) false)]

theorem dotted_imports_lead_outside_iff_plainTree :
    plainTree.Sound ∧
    ∃ b c rest, c.source = "x.y" ∧
      Encounter plainTree ⟨"/proj/main.py"⟩
        { table := searchTable plainTree (searchOrder [⟨"/proj"⟩] .near []) }
        ⟨b, .meet c :: rest⟩ ∧
      ∀ scanPath, LeadsOutside scanPath b c.source := by
  have sound : plainTree.Sound := FileTree.sound_placeAll .nil _
  have inProj : plainTree.locate ⟨"/proj"⟩ = .ok ["proj"] := by decide +kernel
  have inside : plainTree.namesAt ["proj"] = ["main.py"] := by decide +kernel
  have only {name : String} (listed : name ∈ plainTree.names ⟨"/proj"⟩) : name = "main.py" := by
    obtain ⟨loc, located, member⟩ := FileTree.mem_names.mp listed
    rw [inProj] at located
    cases located
    rw [inside] at member
    exact List.mem_singleton.mp member
  have named {name : String} {file : Path} (offers : Offers plainTree ⟨"/proj"⟩ name file) :
      name = "main" ∧ file = ⟨"/proj/main.py"⟩ := by
    cases offers with
    | package holds =>
        obtain rfl := only holds.listed
        exact absurd holds.isDir (by decide +kernel)
    | module holds =>
        obtain rfl : name = "main" := String.append_left_inj ".py" |>.mp (only holds.listed)
        exact ⟨rfl, rfl⟩
  obtain ⟨-, -, all⟩ := dotted_imports_lead_outside_iff sound [⟨"/proj"⟩] .near []
    ⟨"/proj/main.py"⟩ .warn .reject []
  have head : ((Moment.ofScan? plainTree ⟨"/proj/main.py"⟩
      { table := searchTable plainTree (searchOrder [⟨"/proj"⟩] .near []) } 0).bind
      (·.agenda.head?)) = some (.meet ⟨0, ⟨"/proj/main.py"⟩, 1, true, .module "x.y"⟩) := by
    decide +kernel
  obtain ⟨b, rest, now⟩ := Moment.encounter_of_head head
  refine ⟨sound, b, _, rest, rfl, now, fun scanPath => ?_⟩
  refine all (fun name p listed => ?_) (by decide +kernel) scanPath b _ rest now ⟨rfl, rfl⟩
    (by decide)
  obtain ⟨before, dir, after, file, order, -, offers, rfl, -⟩ :=
    (find?_searchTable_eq_some_iff sound).mp listed
  obtain rfl : dir = ⟨"/proj"⟩ := by
    refine List.mem_singleton.mp (show dir ∈ searchOrder [⟨"/proj"⟩] .near [] from ?_)
    rw [order]
    exact List.mem_append_right _ List.mem_cons_self
  obtain ⟨rfl, rfl⟩ := named offers
  exact ⟨by decide, by decide +kernel⟩

/-- In the directory `proj`, the file `a.b.py` is imported from `main.py` and from itself. -/
def dottedTree : FileTree :=
  FileTree.placeAll []
    [(⟨"/proj/main.py"⟩, .file (encodeUtf8 "import a.b\n".toList) false),
     (⟨"/proj/a.b.py"⟩, .file (encodeUtf8 "import a.b\n".toList) false)]

/-- **A dotted name can be imported as a module**, in two ways.  If `proj` is searched, the table
has `a.b`, and the import in `main.py` finds the file.  If nothing is searched and `a.b.py` is
the entry, the table is empty, and the import of `a.b` finds the entry itself. -/
theorem dotted_import_finds_module_dottedTree :
    dottedTree.Sound ∧
    (searchTable dottedTree (searchOrder [⟨"/proj"⟩] .near [])).find? "a.b" =
      some ⟨"/proj/a.b.py"⟩ ∧
    (∃ b c rest, Encounter dottedTree ⟨"/proj/main.py"⟩
        { table := searchTable dottedTree (searchOrder [⟨"/proj"⟩] .near []) }
        ⟨b, .meet c :: rest⟩ ∧
      c.Asks b ∧ c.source = "a.b" ∧ ∀ scanPath, ¬ LeadsOutside scanPath b c.source) ∧
    ∃ b c rest, Encounter dottedTree ⟨"/proj/a.b.py"⟩
        { table := searchTable dottedTree (searchOrder [] .near []) } ⟨b, .meet c :: rest⟩ ∧
      c.Asks b ∧ c.source = "a.b" ∧ ∀ scanPath, ¬ LeadsOutside scanPath b c.source := by
  have sound : dottedTree.Sound := FileTree.sound_placeAll .nil _
  have inProj : dottedTree.locate ⟨"/proj"⟩ = .ok ["proj"] := by decide +kernel
  have searches : Searches dottedTree ⟨"/proj"⟩ :=
    ⟨⟨by decide +kernel, hasSkippedEnding_eq_false_iff.mp (by decide +kernel)⟩, by decide +kernel⟩
  have offers : Offers dottedTree ⟨"/proj"⟩ "a.b" ⟨"/proj/a.b.py"⟩ := by
    refine .module ⟨by decide, FileTree.mem_names.mpr ⟨_, inProj, by decide +kernel⟩,
      by decide +kernel⟩ fun holds => ?_
    exact absurd holds.isDir (by decide +kernel)
  have listed : (searchTable dottedTree (searchOrder [⟨"/proj"⟩] .near [])).find? "a.b" =
      some ⟨"/proj/a.b.py"⟩ :=
    (find?_searchTable_eq_some_iff sound).mpr
      ⟨[], _, [], _, rfl, searches, offers, by decide +kernel, by simp⟩
  refine ⟨sound, listed, ?_, ?_⟩
  · have head : ((Moment.ofScan? dottedTree ⟨"/proj/main.py"⟩
        { table := searchTable dottedTree (searchOrder [⟨"/proj"⟩] .near []) } 0).bind
        (·.agenda.head?)) = some (.meet ⟨0, ⟨"/proj/main.py"⟩, 1, true, .module "a.b"⟩) := by
      decide +kernel
    obtain ⟨b, rest, now⟩ := Moment.encounter_of_head head
    refine ⟨b, _, rest, now, ⟨rfl, rfl⟩, rfl, fun scanPath outside => ?_⟩
    have unlisted := (leadsOutside_iff.mp outside).2
    rw [show b.table = _ from now.grows.table] at unlisted
    exact absurd (unlisted.symm.trans listed) (by simp)
  · have head : ((Moment.ofScan? dottedTree ⟨"/proj/a.b.py"⟩
        { table := searchTable dottedTree (searchOrder [] .near []) } 0).map
        fun s => (s.agenda.head?, knownModule? s.build "a.b")) =
        some (some (.meet ⟨0, ⟨"/proj/a.b.py"⟩, 1, true, .module "a.b"⟩), some 0) := by
      decide +kernel
    obtain ⟨⟨b, agenda⟩, computed, first⟩ := Option.map_eq_some_iff.mp head
    obtain ⟨next, known⟩ := Prod.mk.inj first
    obtain ⟨rest, rfl⟩ := List.head?_eq_some_iff.mp next
    refine ⟨b, _, rest, Moment.encounter_of_ofScan? computed, ⟨rfl, rfl⟩, rfl,
      fun scanPath outside => ?_⟩
    have unknown := (leadsOutside_iff.mp outside).1
    exact absurd (unknown.symm.trans known) (by simp)

end Amalgam
