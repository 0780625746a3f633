import Amalgam.Proofs.RenamedOccurrences
import Amalgam.Proofs.CompleteImports

/-!
# The names of symbol tables are keys

A renaming is only understood for keys that are made of identifier characters and dots
(`IsKey`), and the renaming of a module has the names of its symbol table for keys.  Those
are identifiers that it declares or that a clause binds, and such names behind the name of a
module and a dot.  The name of a module is read off tokens, identifiers with dots between
them (`isKey_intercalate`), so all of them are keys, at every moment of a scan.

## Main statements

* `IsIdentifier.isKey`, `IsKey.dot`
* `classify?_source_isKey` — the module that a clause names
* `Encounter.keyed` — the tables of all modules
* `Renaming.isKey_of_mem_ofTable` — the rules of a module
-/

namespace Amalgam

open Renaming

/-! ### Keys -/

theorem IsIdentifier.isKey {name : String} (identifier : IsIdentifier name) :
    IsKey name.toList := by
  have names : ∀ c ∈ name.toList, isIdentChar c = true := fun c member =>
    isIdentChar_of_isNameChar (isIdentifierText.all identifier c member)
  refine ⟨?_, fun c member => Or.inl (names c member)⟩
  obtain ⟨c, cs, text⟩ : ∃ c cs, name.toList = c :: cs := by
    refine List.exists_cons_of_ne_nil fun empty => ?_
    exact identifier.ne_empty (String.toList_eq_nil_iff.mp empty)
  exact ⟨c, cs, text, names c (text ▸ List.mem_cons_self)⟩

/-- A key goes on behind a dot. -/
theorem Renaming.IsKey.dot {first second : String} (head : IsKey first.toList)
    (tail : IsKey second.toList) : IsKey (first ++ "." ++ second).toList := by
  rw [String.toList_append, String.toList_append]
  obtain ⟨c, cs, text, ident⟩ := head.start
  refine ⟨⟨c, cs ++ ".".toList ++ second.toList, by rw [text]; rfl, ident⟩, fun d member => ?_⟩
  rcases List.mem_append.mp member with member | later
  · rcases List.mem_append.mp member with early | point
    · exact head.chars d early
    · exact Or.inr (List.mem_singleton.mp point)
  · exact tail.chars d later

/-! ### Modules that clauses name -/

/-- Keys with dots between them are a key. -/
theorem isKey_intercalate {parts : List String} (some : parts ≠ [])
    (keys : ∀ part ∈ parts, IsKey part.toList) : IsKey (".".intercalate parts).toList := by
  induction parts with
  | nil => exact absurd rfl some
  | cons part rest ih =>
      have first := keys part List.mem_cons_self
      cases rest with
      | nil =>
          rw [String.intercalate_singleton]
          exact first
      | cons second rest =>
          rw [String.intercalate_cons_cons]
          exact first.dot (ih (List.cons_ne_nil _ _) fun other later =>
            keys other (List.mem_cons_of_mem _ later))

/-- **The module that a clause names is a key.** -/
theorem classify?_source_isKey {tokens : List Token} {forms : List ImportForm}
    (worded : WordedTokens tokens) (classified : classify? tokens = some forms) :
    ∀ form ∈ forms, IsKey form.source.toList := by
  intro form member
  have drawn := (importStatement_of_classify? classified).drawsOn form member
  obtain ⟨parts, some, inside, same⟩ := drawn.source
  rw [same]
  exact isKey_intercalate some fun part inParts =>
    (worded.isIdentifier (inside part inParts)).isKey

/-! ### Tables -/

/-- The names of a symbol table are keys. -/
def SymbolTable.Keyed (t : SymbolTable) : Prop :=
  ∀ entry, entry ∈ t.own.entries ∨ entry ∈ t.seen.entries → IsKey entry.1.toList

/-- What a clause makes visible, it makes visible under keys. -/
theorem SymbolTable.Keyed.importedNames {wildcard : WildcardPolicy} {symbols : SymbolTable}
    (keyed : symbols.Keyed) {form : ImportForm} (source : IsKey form.source.toList)
    (worded : form.Worded) {label q : String}
    (member : (label, q) ∈ importedNames wildcard symbols form) : IsKey label.toList := by
  obtain ⟨name, inTable, labelled⟩ := importedNames_cases member
  have named := keyed _ inTable
  rcases labelled with rfl | ⟨target, binds⟩ | ⟨head, rfl | ⟨target, binds⟩, rfl⟩
  · exact named
  · exact (worded _ _ binds).isKey
  · exact source.dot named
  · exact (worded _ _ binds).isKey.dot named

/-- The names that the modules of a build know are keys. -/
def Build.Keyed (b : Build) : Prop :=
  ∀ i m, b.graph.module? i = some m → m.symbols.Keyed

namespace Build.Keyed

variable {b : Build}

theorem congr {b' : Build} (keyed : b.Keyed) (graph : b'.graph = b.graph) : b'.Keyed := by
  intro i m here
  rw [graph] at here
  exact keyed i m here

theorem symbolsOf (keyed : b.Keyed) (id : Nat) : (b.symbolsOf id).Keyed := by
  intro entry member
  obtain ⟨m, there, inTable⟩ := module?_of_mem_symbolsOf member
  exact keyed id m there entry inTable

theorem openModule (keyed : b.Keyed) {full : Path} (new : b.graph.byPath? full = none)
    (source : List Char) : (openModule full source b).1.Keyed := by
  intro i m here
  rcases module?_openModule_cases new here with ⟨-, rfl⟩ | old
  · rintro entry (own | seen)
    · cases own
    · cases seen
  · exact keyed i m old

theorem declare (keyed : b.Keyed) (id : Nat) {name : String} (identifier : IsIdentifier name) :
    (b.declare id name).Keyed := by
  cases found : b.graph.module? id with
  | none =>
      rw [declare_of_none found]
      exact keyed
  | some old =>
      rw [declare_of_module found]
      intro i m here
      rcases module?_modify_cases here with ⟨rfl, before, there, rfl⟩ | ⟨-, there⟩
      · rintro entry (own | seen)
        · rcases NameMap.mem_entries_insert own with rfl | old
          · exact identifier.isKey
          · exact keyed i before there entry (Or.inl old)
        · exact keyed i before there entry (Or.inr seen)
      · exact keyed i m there

theorem bindModule (keyed : b.Keyed) (id found : Nat) (path : Path) (number : Nat)
    {form : ImportForm} (source : IsKey form.source.toList) (worded : form.Worded) :
    (bindModule id found path number form b).Keyed := by
  intro i m here
  rw [graph_bindModule] at here
  rcases module?_modify_cases here with ⟨rfl, before, there, rfl⟩ | ⟨-, there⟩
  · rw [Module.symbols_takeClause]
    rintro entry (own | seen)
    · rw [SymbolTable.own_bindAll] at own
      exact keyed i before there entry (Or.inl own)
    · rcases SymbolTable.mem_seen_bindAll seen with new | old
      · exact (keyed.symbolsOf found).importedNames source worded new
      · exact keyed i before there entry (Or.inr old)
  · exact keyed i m there

end Build.Keyed

/-- One task keeps the names keys. -/
theorem Performed.keyed {tree : FileTree} {b b' : Build} {task : Task} {new : List Task}
    (performed : Performed tree b task b' new) (read : task.Read) (keyed : b.Keyed) :
    b'.Keyed := by
  cases performed with
  | code id path number lexed =>
      refine scanCode_induction ?_ (fun _ _ noted holds => holds.congr noted.graph) keyed
      intro b name declared holds
      exact holds.declare id (declaredNames_isIdentifier read.worded declared)
  | future => exact keyed.congr rfl
  | known => exact keyed
  | listed => exact keyed.congr rfl
  | outside => exact keyed.congr rfl
  | revisit => exact keyed
  | opened absent => exact keyed.openModule absent _
  | arrive c id =>
      intro i m here
      rw [Graph.module?_addName] at here
      exact keyed i m here
  | bound c found =>
      have worded := read.worded
      obtain ⟨state, line, forms, classified, member⟩ := read
      exact keyed.bindModule _ found _ _
        (classify?_source_isKey (lexFrom_worded state line) classified c.form member) worded
  | boundOutside c => exact keyed.congr (OnlyNotes.bindExternal _ _ _ _ _ b).graph

/-- **The names that modules know are keys**, at every moment of a scan. -/
theorem Encounter.keyed {tree : FileTree} {entry : Path} {start : Build} (begins : start.Keyed)
    {s : Moment} (now : Encounter tree entry start s) : s.build.Keyed := by
  refine now.build_induction (fun entered => ?_) (fun performed read => performed.keyed read)
  rcases enter_cases entered with ⟨-, rfl, -⟩ | ⟨absent, source, -, -, rfl, -⟩
  · exact begins
  · exact begins.openModule absent source

/-! ### Renamings of modules -/

namespace Renaming

/-- Every rule comes from a pair. -/
theorem mem_rules_ofPairs {pairs : List (String × String)} {rule : Rule}
    (member : rule ∈ (ofPairs pairs).rules) : ∃ pair ∈ pairs, rule = Rule.ofPair pair := by
  have inserted : ∀ (kept : List (String × String)) {rules : List Rule},
      rule ∈ kept.foldl (fun rules pair =>
        insertRule ⟨pair.1.toList, pair.2.toList⟩ rules) rules →
      rule ∈ rules ∨ ∃ pair ∈ kept, rule = Rule.ofPair pair := by
    intro kept
    induction kept with
    | nil => exact fun known => Or.inl known
    | cons pair rest ih =>
        intro rules known
        rcases ih known with early | ⟨other, later, same⟩
        · rcases mem_insertRule early with new | old
          · exact Or.inr ⟨pair, List.mem_cons_self, new⟩
          · exact Or.inl old
        · exact Or.inr ⟨other, List.mem_cons_of_mem _ later, same⟩
  rcases inserted _ member with none | ⟨pair, kept, same⟩
  · cases none
  · exact ⟨pair, (List.mem_filter.mp kept).1, same⟩

/-- **The keys of a module's renaming are keys.** -/
theorem isKey_of_mem_ofTable {t : SymbolTable} (keyed : t.Keyed) {registry : Registry}
    {rule : Rule} (member : rule ∈ (ofTable t registry).rules) : IsKey rule.key := by
  obtain ⟨pair, given, rfl⟩ := mem_rules_ofPairs member
  obtain ⟨entry, inTable, rfl⟩ := List.mem_map.mp given
  exact keyed entry (List.mem_append.mp inTable)

/-- What a name becomes, a rule says. -/
theorem mem_rules_of_image? {r : Renaming} {name word : String}
    (becomes : r.image? name = some word) : ⟨name.toList, word.toList⟩ ∈ r.rules := by
  obtain ⟨rule, found, spelled⟩ := Option.map_eq_some_iff.mp becomes
  have same := List.find?_some found
  have key : rule.key = name.toList := of_decide_eq_true same
  have replacement : rule.replacement = word.toList := by
    rw [← spelled, String.toList_ofList]
  rw [← key, ← replacement]
  exact List.mem_of_find?_eq_some found

end Renaming

end Amalgam
