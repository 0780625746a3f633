import Amalgam.Proofs.TaskEffects

/-!
# Scopes, tables and identifiers stay consistent

The one invariant behind the naming of a combined program, `Build.WellNamed`: scopes
are identifiers and pairwise distinct, what a module declares is qualified by its
scope and registered, what a module sees was declared by some module, and the
registry gives out distinct words that no reserved word can be.

Three operations can touch it.  **Opening** a file adds a module with empty tables
and a scope that was free.  **Declaring** a name adds an entry that the registry
knows at once.  **Binding** a clause copies entries of another module's table, and
what they lead to was declared already, so a chain of re-exports of any length never
leaves the declared names; that the other module may be half scanned does not matter,
since declared names stay declared.  Everything else a scan does is invisible
(`OnlyNotes`).

`wellNamed_scanPath` is the invariant for whatever a scan leaves, also one that
failed.  Two results are read off it: here, that no two declarations share a word, and
in `Amalgam.Proofs.DefinitionUse` that definition and use get the same one.
-/

namespace Amalgam

/-! ### The invariant -/

/-- Some module declares the qualified name. -/
def Build.Declares (b : Build) (qualified : String) : Prop :=
  ∃ i d name, b.graph.module? i = some d ∧ d.symbols.own.find? name = some qualified

/-- What holds of one module of a build. -/
structure Module.WellNamed (b : Build) (m : Module) : Prop where
  scope_identifier : IsIdentifier m.scope
  scope_taken : m.scope ∈ b.scopes
  own_identifier : ∀ entry ∈ m.symbols.own.entries, IsIdentifier entry.1
  own_qualified : ∀ entry ∈ m.symbols.own.entries, entry.2 = qualify m.scope entry.1
  own_registered : ∀ entry ∈ m.symbols.own.entries, (b.registry.get? entry.2).isSome
  seen_named : ∀ entry ∈ m.symbols.seen.entries, entry.1 ≠ ""
  seen_declared : ∀ entry ∈ m.symbols.seen.entries, b.Declares entry.2

/-- **The naming invariant of a build.** -/
structure Build.WellNamed (b : Build) : Prop where
  module : ∀ {i : Nat} {m : Module}, b.graph.module? i = some m → m.WellNamed b
  scope_inj : ∀ {i j : Nat} {m n : Module}, b.graph.module? i = some m →
    b.graph.module? j = some n → m.scope = n.scope → i = j
  injective : b.registry.Injective
  emitted : ∀ entry ∈ b.registry.entries, IsEmitted entry.2

namespace Module.WellNamed

variable {b b' : Build} {m : Module}

/-- What a declared name leads to. -/
theorem own_find? (named : m.WellNamed b) {name q : String}
    (found : m.symbols.own.find? name = some q) : q = qualify m.scope name :=
  named.own_qualified _ (NameMap.mem_entries_of_find? found)

/-- An entry of a module's declarations is what its name leads to. -/
theorem find?_of_mem_own (named : m.WellNamed b) {name q : String}
    (member : (name, q) ∈ m.symbols.own.entries) : m.symbols.own.find? name = some q := by
  obtain ⟨q', found⟩ := Option.isSome_iff_exists.mp (NameMap.find?_isSome_of_mem member)
  rw [found, named.own_find? found, ← named.own_qualified _ member]

/-- A build that has more scopes, identifiers and declarations keeps its modules. -/
theorem mono (named : m.WellNamed b) (scopes : b.scopes ⊆ b'.scopes)
    (registered : ∀ q, (b.registry.get? q).isSome → (b'.registry.get? q).isSome)
    (declares : ∀ q, b.Declares q → b'.Declares q) : m.WellNamed b' where
  scope_identifier := named.scope_identifier
  scope_taken := scopes named.scope_taken
  own_identifier := named.own_identifier
  own_qualified := named.own_qualified
  own_registered entry member := registered _ (named.own_registered entry member)
  seen_named := named.seen_named
  seen_declared entry member := declares _ (named.seen_declared entry member)

/-- What a module knows under any name was declared. -/
theorem declares_of_mem (named : m.WellNamed b) {i : Nat} (here : b.graph.module? i = some m)
    {entry : String × String}
    (member : entry ∈ m.symbols.own.entries ∨ entry ∈ m.symbols.seen.entries) :
    b.Declares entry.2 := by
  rcases member with own | seen
  · exact ⟨i, m, entry.1, here, named.find?_of_mem_own own⟩
  · exact named.seen_declared entry seen

end Module.WellNamed

/-- The build before a scan. -/
theorem wellNamed_start (table : SearchTable) (wildcard : WildcardPolicy) (cycles : CyclePolicy)
    (diagnostics : List Diagnostic) :
    ({ table, wildcard, cycles, diagnostics } : Build).WellNamed where
  module here := by simp at here
  scope_inj here := by simp at here
  injective := Registry.injective_empty
  emitted entry member := by simp at member

variable {b b' : Build}

theorem Build.WellNamed.congr (named : b.WellNamed) (same : SameNames b b') :
    b'.WellNamed where
  module {i m} here := by
    rw [same.graph] at here
    refine (named.module here).mono ?_ ?_ ?_
    · rw [same.scopes]
      exact List.Subset.refl _
    · rw [same.registry]
      exact fun _ known => known
    · rintro q ⟨j, d, name, there, found⟩
      exact ⟨j, d, name, by rw [same.graph]; exact there, found⟩
  scope_inj first second := by
    rw [same.graph] at first second
    exact named.scope_inj first second
  injective := by
    rw [same.registry]
    exact named.injective
  emitted := by
    rw [same.registry]
    exact named.emitted

/-! ### Opening a file -/

/-- A module with empty tables and a scope that was free joins. -/
theorem Build.WellNamed.opened (named : b.WellNamed) {full : Path}
    (new : b.graph.byPath? full = none) (source : List Char) :
    (openModule full source b).1.WellNamed := by
  have free : b.freeScope (scopeOf (moduleName full)) ∉ b.scopes :=
    freshName_notMem b.scopes _
  have stays : ∀ {i m}, b.graph.module? i = some m →
      (openModule full source b).1.graph.module? i = some m := by
    intro i m here
    have below : i < b.graph.nodes.length := Graph.module?_isSome_iff.mp (by simp [here])
    rw [module?_openModule new, if_neg (Nat.ne_of_lt below)]
    exact here
  refine ⟨?_, ?_, ?_, ?_⟩
  · intro i m here
    rcases module?_openModule_cases new here with ⟨-, rfl⟩ | old
    · have taken : (newModule b full source).scope ∈ (openModule full source b).1.scopes := by
        rw [scopes_openModule]
        exact List.mem_append_right _ List.mem_cons_self
      constructor
      case scope_identifier => exact (scopeOf_isIdentifier _).freshName _
      case scope_taken => exact taken
      -- both tables are empty
      all_goals
        intro entry member
        cases member
    · refine (named.module old).mono ?_ (fun _ known => known) ?_
      · rw [scopes_openModule]
        exact List.subset_append_left _ _
      · rintro q ⟨j, d, name, there, found⟩
        exact ⟨j, d, name, stays there, found⟩
  · intro i j m n first second equal
    rcases module?_openModule_cases new first with ⟨firstLast, rfl⟩ | firstOld <;>
      rcases module?_openModule_cases new second with ⟨secondLast, rfl⟩ | secondOld
    · rw [firstLast, secondLast]
    · have taken := (named.module secondOld).scope_taken
      rw [← equal] at taken
      exact absurd taken free
    · have taken := (named.module firstOld).scope_taken
      rw [equal] at taken
      exact absurd taken free
    · exact named.scope_inj firstOld secondOld equal
  · exact named.injective
  · exact named.emitted

/-! ### Changing one module -/

variable {i id : Nat} {f : Module → Module} {name q : String} {t : SymbolTable}
  {entry : String × String}

/-- A module of the graph after a change to one of them. -/
theorem module?_modify_cases {g : Graph} {m : Module} (here : (g.modify id f).module? i = some m) :
    (i = id ∧ ∃ old, g.module? id = some old ∧ m = f old) ∨ i ≠ id ∧ g.module? i = some m := by
  rw [Graph.module?_modify] at here
  split at here
  next same =>
    subst same
    obtain ⟨old, there, rfl⟩ := Option.map_eq_some_iff.mp here
    exact Or.inl ⟨rfl, old, there, rfl⟩
  next other => exact Or.inr ⟨other, here⟩

theorem module?_modify_of {g : Graph} (id : Nat) {m : Module} (here : g.module? i = some m) :
    (g.modify id f).module? i = some (if i = id then f m else m) := by
  rw [Graph.module?_modify]
  split <;> simp [here]

/-- **Changing one module keeps the invariant** if the module keeps its scope and its
declarations, and is well named afterwards. -/
theorem Build.WellNamed.modified (named : b.WellNamed)
    (graph : b'.graph = b.graph.modify id f) (scopes : b'.scopes = b.scopes)
    (registered : ∀ q, (b.registry.get? q).isSome → (b'.registry.get? q).isSome)
    (injective : b'.registry.Injective)
    (emitted : ∀ entry ∈ b'.registry.entries, IsEmitted entry.2)
    (sameScope : ∀ m, (f m).scope = m.scope)
    (declared : ∀ {m}, b.graph.module? id = some m → ∀ {name q},
      m.symbols.own.find? name = some q → (f m).symbols.own.find? name = some q)
    (changed : ∀ {m}, b.graph.module? id = some m → (∀ q, b.Declares q → b'.Declares q) →
      (f m).WellNamed b') :
    b'.WellNamed := by
  have declares : ∀ q, b.Declares q → b'.Declares q := by
    rintro q ⟨j, d, name, there, found⟩
    refine ⟨j, _, name, by rw [graph]; exact module?_modify_of id there, ?_⟩
    split
    next same =>
      subst same
      exact declared there found
    next => exact found
  refine ⟨?_, ?_, injective, emitted⟩
  · intro i m here
    rw [graph] at here
    rcases module?_modify_cases here with ⟨-, old, there, rfl⟩ | ⟨-, there⟩
    · exact changed there declares
    · exact (named.module there).mono (by rw [scopes]; exact List.Subset.refl _) registered declares
  · have earlier : ∀ {i m}, b'.graph.module? i = some m →
        ∃ old, b.graph.module? i = some old ∧ old.scope = m.scope := by
      intro i m here
      rw [graph] at here
      rcases module?_modify_cases here with ⟨rfl, old, there, rfl⟩ | ⟨-, there⟩
      · exact ⟨old, there, (sameScope old).symm⟩
      · exact ⟨m, there, rfl⟩
    intro i j m n first second equal
    obtain ⟨m', firstOld, firstScope⟩ := earlier first
    obtain ⟨n', secondOld, secondScope⟩ := earlier second
    exact named.scope_inj firstOld secondOld (by rw [firstScope, secondScope, equal])

/-! ### Declaring a name -/

theorem Build.WellNamed.declared (named : b.WellNamed) (id : Nat)
    (identifier : IsIdentifier name) : (b.declare id name).WellNamed := by
  cases here : b.graph.module? id with
  | none =>
      rw [declare_of_none here]
      exact named
  | some m =>
      have before := named.module here
      have keeps : ∀ q, (b.registry.get? q).isSome →
          ((b.registry.register (qualify m.scope name)).get? q).isSome := by
        intro q known
        obtain ⟨word, found⟩ := Option.isSome_iff_exists.mp known
        rw [Registry.get?_register_of_get? _ found]
        rfl
      rw [declare_of_module here]
      refine named.modified (f := (·.declare name)) rfl rfl keeps
        (named.injective.register _) ?_ (fun _ => rfl) ?_ ?_
      · intro entry member
        rcases Registry.mem_entries_register member with old | rfl
        · exact named.emitted entry old
        · exact .freshName_flatten before.scope_identifier identifier _
      · intro m' there other q found
        rw [here] at there
        cases there
        change (m.symbols.own.insert name (qualify m.scope name)).find? other = some q
        rw [NameMap.find?_insert]
        split
        next same =>
          -- a name that is declared again has the same scope, so the same qualified name
          rw [before.own_find? found, same]
        next => exact found
      · intro m' there declares
        rw [here] at there
        cases there
        have entries : ∀ entry ∈ (m.declare name).symbols.own.entries,
            entry = (name, qualify m.scope name) ∨ entry ∈ m.symbols.own.entries :=
          fun entry member => NameMap.mem_entries_insert member
        refine ⟨before.scope_identifier, before.scope_taken, ?_, ?_, ?_, before.seen_named, ?_⟩
        · intro entry member
          rcases entries entry member with rfl | old
          · exact identifier
          · exact before.own_identifier entry old
        · intro entry member
          rcases entries entry member with rfl | old
          · rfl
          · exact before.own_qualified entry old
        · intro entry member
          rcases entries entry member with rfl | old
          · exact Registry.get?_register_self _ _
          · exact keeps _ (before.own_registered entry old)
        · exact fun entry member => declares _ (before.seen_declared entry member)

/-! ### Binding a clause -/

theorem SymbolTable.own_bindAll (t : SymbolTable) (pairs : List (String × String)) :
    (t.bindAll pairs).own = t.own := by
  induction pairs generalizing t with
  | nil => rfl
  | cons pair rest ih => exact ih (t.bind pair.1 pair.2)

theorem SymbolTable.mem_seen_bindAll {pairs : List (String × String)}
    (member : entry ∈ (t.bindAll pairs).seen.entries) :
    entry ∈ pairs ∨ entry ∈ t.seen.entries := by
  induction pairs generalizing t with
  | nil => exact Or.inr member
  | cons pair rest ih =>
      rcases ih (t := t.bind pair.1 pair.2) member with new | old
      · exact Or.inl (List.mem_cons_of_mem _ new)
      · rcases NameMap.mem_entries_insert old with rfl | older
        · exact Or.inl List.mem_cons_self
        · exact Or.inr older

/-- A name that a module exports is in one of its tables. -/
theorem SymbolTable.mem_of_exported (member : entry ∈ t.exported) :
    entry ∈ t.own.entries ∨ entry ∈ t.seen.entries := by
  rcases List.mem_append.mp member with own | seen
  · exact Or.inl own
  · exact Or.inr (List.mem_filter.mp seen).1

theorem SymbolTable.resolve?_eq (t : SymbolTable) (name : String) :
    t.resolve? name = (t.own.find? name).or (t.seen.find? name) := by
  unfold resolve?
  cases t.own.find? name <;> rfl

/-- What a name means in a module is in one of its tables. -/
theorem SymbolTable.mem_of_resolve? (found : t.resolve? name = some q) :
    (name, q) ∈ t.own.entries ∨ (name, q) ∈ t.seen.entries := by
  rw [resolve?_eq] at found
  rcases Option.or_eq_some_iff.mp found with own | ⟨-, seen⟩
  · exact Or.inl (NameMap.mem_entries_of_find? own)
  · exact Or.inr (NameMap.mem_entries_of_find? seen)

/-- **A clause hands on entries of the other module's tables**: under the same name for a
wildcard, under the name that the clause binds, or behind a dot and the module's name or the
name that it is given. -/
theorem importedNames_cases {wildcard : WildcardPolicy} {symbols : SymbolTable}
    {form : ImportForm} {label : String}
    (member : (label, q) ∈ importedNames wildcard symbols form) :
    ∃ name, ((name, q) ∈ symbols.own.entries ∨ (name, q) ∈ symbols.seen.entries) ∧
      (label = name ∨ (∃ target, form.binding? = some (label, target)) ∨
        ∃ head, (head = form.source ∨ ∃ target, form.binding? = some (head, target)) ∧
          label = head ++ "." ++ name) := by
  have dotted : ∀ {source : String},
      (label, q) ∈ symbols.exported.map (fun entry => (source ++ "." ++ entry.1, entry.2)) →
      ∃ name, ((name, q) ∈ symbols.own.entries ∨ (name, q) ∈ symbols.seen.entries) ∧
        label = source ++ "." ++ name := by
    intro source mapped
    obtain ⟨⟨name, q'⟩, exported, equal⟩ := List.mem_map.mp mapped
    cases equal
    exact ⟨name, SymbolTable.mem_of_exported exported, rfl⟩
  have single : ∀ {symbol name : String},
      (label, q) ∈ ((symbols.resolve? symbol).map fun q => (name, q)).toList →
      label = name ∧ ((symbol, q) ∈ symbols.own.entries ∨ (symbol, q) ∈ symbols.seen.entries) := by
    intro symbol name mapped
    obtain ⟨q', found, equal⟩ := Option.map_eq_some_iff.mp (Option.mem_toList.mp mapped)
    cases equal
    exact ⟨rfl, SymbolTable.mem_of_resolve? found⟩
  cases form with
  | wildcard source =>
      cases wildcard with
      | bind =>
          have exported := (List.mem_filter.mp member).1
          exact ⟨label, SymbolTable.mem_of_exported exported, Or.inl rfl⟩
      | warn => cases member
      | deny => cases member
  | symbolAs source symbol name =>
      obtain ⟨rfl, inTable⟩ := single member
      exact ⟨symbol, inTable, Or.inr (Or.inl ⟨_, rfl⟩)⟩
  | symbol source symbol =>
      obtain ⟨rfl, inTable⟩ := single member
      exact ⟨label, inTable, Or.inl rfl⟩
  | moduleAs source name =>
      obtain ⟨member, inTable, equal⟩ := dotted member
      exact ⟨member, inTable, Or.inr (Or.inr ⟨name, Or.inr ⟨source, rfl⟩, equal⟩)⟩
  | module source =>
      obtain ⟨member, inTable, equal⟩ := dotted member
      exact ⟨member, inTable, Or.inr (Or.inr ⟨source, Or.inl rfl, equal⟩)⟩

@[simp] theorem Module.scope_takeClause (wildcard : WildcardPolicy) (symbols : SymbolTable)
    (form : ImportForm) (m : Module) : (m.takeClause wildcard symbols form).scope = m.scope := by
  simp only [Module.takeClause, Module.bindAll, Module.addDependency]
  split <;> rfl

theorem Module.symbols_takeClause (wildcard : WildcardPolicy) (symbols : SymbolTable)
    (form : ImportForm) (m : Module) :
    (m.takeClause wildcard symbols form).symbols =
      m.symbols.bindAll (importedNames wildcard symbols form) := by
  simp only [Module.takeClause, Module.bindAll, Module.symbols_addDependency]

/-- A number whose tables hold something is a module's. -/
theorem module?_of_mem_symbolsOf
    (member : entry ∈ (b.symbolsOf id).own.entries ∨ entry ∈ (b.symbolsOf id).seen.entries) :
    ∃ m, b.graph.module? id = some m ∧
      (entry ∈ m.symbols.own.entries ∨ entry ∈ m.symbols.seen.entries) := by
  cases there : b.graph.module? id with
  | none => simp [Build.symbolsOf, there] at member
  | some m =>
      rw [Build.symbolsOf, there] at member
      exact ⟨m, rfl, member⟩

theorem Build.WellNamed.bound (named : b.WellNamed) (id found : Nat) (path : Path)
    (number : Nat) {form : ImportForm} (worded : form.Worded) :
    (bindModule id found path number form b).WellNamed := by
  have ownKept (m : Module) :
      (m.takeClause b.wildcard (b.symbolsOf found) form).symbols.own = m.symbols.own := by
    rw [Module.symbols_takeClause, SymbolTable.own_bindAll]
  have handedOn : ∀ label q, (label, q) ∈ importedNames b.wildcard (b.symbolsOf found) form →
      label ≠ "" ∧ b.Declares q := by
    intro label q member
    obtain ⟨name, inTable, labelled⟩ := importedNames_cases member
    obtain ⟨other, there, inTable⟩ := module?_of_mem_symbolsOf inTable
    have sound := named.module there
    refine ⟨?_, sound.declares_of_mem there inTable⟩
    rcases labelled with rfl | ⟨target, binds⟩ | ⟨head, -, rfl⟩
    · rcases inTable with own | seen
      · exact (sound.own_identifier _ own).ne_empty
      · exact sound.seen_named _ seen
    · exact (worded _ _ binds).ne_empty
    · intro empty
      have chars := congrArg String.toList empty
      simp at chars
  refine named.modified (graph_bindModule id found path number form b)
    (scopes_bindModule id found path number form b) ?_ ?_ ?_ ?_ ?_ ?_
  · rw [registry_bindModule]
    exact fun _ known => known
  · rw [registry_bindModule]
    exact named.injective
  · rw [registry_bindModule]
    exact named.emitted
  · exact Module.scope_takeClause _ _ _
  · intro m _ name q declared
    rw [ownKept]
    exact declared
  · intro m here declares
    have before := named.module here
    have seen : ∀ entry ∈ (m.takeClause b.wildcard (b.symbolsOf found) form).symbols.seen.entries,
        entry.1 ≠ "" ∧ b.Declares entry.2 := by
      intro entry member
      rw [Module.symbols_takeClause] at member
      rcases SymbolTable.mem_seen_bindAll member with new | old
      · exact handedOn _ _ new
      · exact ⟨before.seen_named entry old, before.seen_declared entry old⟩
    refine ⟨?_, ?_, ?_, ?_, ?_, ?_, ?_⟩
    · rw [Module.scope_takeClause]
      exact before.scope_identifier
    · rw [Module.scope_takeClause, scopes_bindModule]
      exact before.scope_taken
    · rw [ownKept]
      exact before.own_identifier
    · rw [ownKept, Module.scope_takeClause]
      exact before.own_qualified
    · rw [ownKept, registry_bindModule]
      exact before.own_registered
    · exact fun entry member => (seen entry member).1
    · exact fun entry member => declares _ (seen entry member).2

/-! ### The whole scan -/

theorem Build.WellNamed.addName (named : b.WellNamed) (name : String) (id : Nat) :
    ({ b with graph := b.graph.addName name id } : Build).WellNamed where
  module {i m} here := by
    rw [Graph.module?_addName] at here
    refine (named.module here).mono (List.Subset.refl _) (fun _ known => known) ?_
    rintro q ⟨j, d, declared, there, found⟩
    exact ⟨j, d, declared, by rw [Graph.module?_addName]; exact there, found⟩
  scope_inj first second := by
    rw [Graph.module?_addName] at first second
    exact named.scope_inj first second
  injective := named.injective
  emitted := named.emitted

/-- One task keeps the invariant. -/
theorem Performed.wellNamed {tree : FileTree} {task : Task} {new : List Task}
    (performed : Performed tree b task b' new) (worded : task.Worded) (named : b.WellNamed) :
    b'.WellNamed := by
  cases performed with
  | code id path number lexed =>
      refine scanCode_induction ?_ (fun _ _ noted holds => holds.congr noted.toSameNames) named
      intro b name declared holds
      exact holds.declared id (declaredNames_isIdentifier worded declared)
  | future => exact named.congr (OnlyNotes.addFuture b _).toSameNames
  | known => exact named
  | listed => exact named.congr (.markVisited b _)
  | outside => exact named.congr (.addExternal b _)
  | revisit => exact named
  | opened absent => exact named.opened absent _
  | arrive c id => exact named.addName _ _
  | bound c found => exact named.bound _ _ _ _ worded
  | boundOutside c => exact named.congr (OnlyNotes.bindExternal _ _ _ _ _ b).toSameNames

theorem Encounter.wellNamed {tree : FileTree} {entry : Path} {start : Build}
    (named : start.WellNamed) {s : Moment} (now : Encounter tree entry start s) :
    s.build.WellNamed := by
  refine now.build_induction (fun entered => ?_)
    (fun performed read => performed.wellNamed read.worded)
  rcases enter_cases entered with ⟨-, rfl, -⟩ | ⟨absent, source, -, -, rfl, -⟩
  · exact named
  · exact named.opened absent source

/-- **The build that a scan leaves is well named**, whether the scan succeeded or not. -/
theorem wellNamed_scanPath {start : Build} (named : start.WellNamed) (tree : FileTree)
    (entry : Path) : (start.scanPath tree entry).2.WellNamed := by
  rcases scanPath_encounter tree entry start with untouched | ⟨left, now⟩
  · rw [untouched]
    exact named
  · exact now.wellNamed named

/-! ### Words of the combined program -/

/-- The word of a declared name. -/
theorem Build.WellNamed.word (named : b.WellNamed) {m : Module}
    (here : b.graph.module? i = some m) (declared : m.symbols.own.contains name) :
    ∃ word, b.registry.get? (qualify m.scope name) = some word ∧ IsEmitted word := by
  obtain ⟨q, found⟩ := Option.isSome_iff_exists.mp declared
  have member := NameMap.mem_entries_of_find? found
  have registered := (named.module here).own_registered _ member
  rw [(named.module here).own_find? found] at registered
  obtain ⟨word, known⟩ := Option.isSome_iff_exists.mp registered
  exact ⟨word, known, named.emitted _ (Registry.mem_entries_of_get? known)⟩

/-- **Declarations with one word are one declaration.** -/
theorem Build.WellNamed.eq_of_word (named : b.WellNamed) {j : Nat} {m n : Module}
    (first : b.graph.module? i = some m) (second : b.graph.module? j = some n) {x y word : String}
    (firstWord : b.registry.get? (qualify m.scope x) = some word)
    (secondWord : b.registry.get? (qualify n.scope y) = some word) : i = j ∧ x = y := by
  have sameName : qualify m.scope x = qualify n.scope y :=
    named.injective.eq_of_get? firstWord secondWord
  obtain ⟨sameScope, same⟩ := qualify_inj (named.module first).scope_identifier
    (named.module second).scope_identifier sameName
  exact ⟨named.scope_inj first second sameScope, same⟩

theorem Registry.identifierOf_of_get? {r : Registry} {word : String}
    (known : r.get? q = some word) : r.identifierOf q = word := by
  rw [identifierOf, known, Option.getD_some]

/-- **No two declarations share a word.**  For every file tree, search table, policy and
entry, in the build that a scan leaves, also one that failed: scopes are pairwise
distinct identifiers, different declarations get different words, and each word is an
identifier that is not reserved and that the lexer reads as one token. -/
theorem declared_words_distinct (tree : FileTree) (entry : Path) (table : SearchTable)
    (wildcard : WildcardPolicy) (cycles : CyclePolicy) (diagnostics : List Diagnostic) :
    let b := (({ table, wildcard, cycles, diagnostics } : Build).scanPath tree entry).2
    (∀ i m, b.graph.module? i = some m → IsIdentifier m.scope) ∧
    (∀ i j m n, b.graph.module? i = some m → b.graph.module? j = some n → i ≠ j →
      m.scope ≠ n.scope) ∧
    (∀ i j m n x y, b.graph.module? i = some m → b.graph.module? j = some n →
      m.symbols.own.contains x → n.symbols.own.contains y → (i, x) ≠ (j, y) →
      b.registry.identifierOf (qualify m.scope x) ≠
        b.registry.identifierOf (qualify n.scope y)) ∧
    ∀ i m x, b.graph.module? i = some m → m.symbols.own.contains x →
      ∃ word, b.registry.get? (qualify m.scope x) = some word ∧ IsIdentifier word ∧
        isKeyword word = false ∧ (lexFresh word.toList).tokens = [⟨.ident, 0, word⟩] := by
  intro b
  have named : b.WellNamed :=
    wellNamed_scanPath (wellNamed_start table wildcard cycles diagnostics) tree entry
  refine ⟨?_, ?_, ?_, ?_⟩
  · intro i m here
    exact (named.module here).scope_identifier
  · intro i j m n first second different same
    exact different (named.scope_inj first second same)
  · intro i j m n x y first second declaresX declaresY different same
    obtain ⟨wordX, knownX, -⟩ := named.word first declaresX
    obtain ⟨wordY, knownY, -⟩ := named.word second declaresY
    rw [Registry.identifierOf_of_get? knownX, Registry.identifierOf_of_get? knownY] at same
    obtain ⟨sameModule, sameName⟩ := named.eq_of_word first second knownX (same ▸ knownY)
    exact different (by rw [sameModule, sameName])
  · intro i m x here declares
    obtain ⟨word, known, emitted⟩ := named.word here declares
    exact ⟨word, known, emitted.identifier, emitted.not_isKeyword, emitted.tokens⟩

end Amalgam
