import Amalgam.Proofs.Namespaces
import Amalgam.Renaming
import Mathlib.Data.Char
import Mathlib.Data.List.Lex

/-!
# Definition and use get the same word

A renaming is made from a module's two symbol tables by inserting one rule after the
other into an ordered list.  `Renaming.image?` is the view that matters: the word that a
name becomes.  The rules are kept in a strict order of their keys, so there is one rule
for a key, the first to be inserted, and the view of a whole table is what its names
mean (`image?_ofTable`).

With the invariant of `Amalgam.Proofs.Namespaces`, a name that a module sees was
declared by some module and is registered, so the renaming of the module that uses it
and that of the module that declares it agree.

## Main statements

* `Renaming.image?_ofPairs`, `Renaming.image?_ofTable`
* `definition_use_same_word`
-/

namespace Amalgam

namespace Renaming

/-! ### The order of keys -/

theorem Rule.before_irrefl (a : List Char) : Rule.before a a = false := by
  simp [before]

theorem Rule.before_trans {a b c : List Char} (first : Rule.before a b = true)
    (second : Rule.before b c = true) : Rule.before a c = true := by
  simp only [before, Bool.or_eq_true, Bool.and_eq_true, decide_eq_true_eq, beq_iff_eq]
    at first second ⊢
  rcases first with longer | ⟨even, less⟩ <;> rcases second with longer' | ⟨even', less'⟩
  · exact Or.inl (longer'.trans longer)
  · exact Or.inl (even' ▸ longer)
  · exact Or.inl (even ▸ longer')
  · exact Or.inr ⟨even.trans even', List.lt_trans less less'⟩

theorem Rule.before_total {a b : List Char} (different : a ≠ b)
    (notBefore : Rule.before a b = false) : Rule.before b a = true := by
  rw [← Bool.not_eq_true] at notBefore
  simp only [before, Bool.or_eq_true, Bool.and_eq_true, decide_eq_true_eq, beq_iff_eq, not_or,
    not_and] at notBefore ⊢
  obtain ⟨notLonger, notLess⟩ := notBefore
  rcases Nat.lt_or_eq_of_le (Nat.le_of_not_lt notLonger) with longer | even
  · exact Or.inl longer
  · refine Or.inr ⟨even.symm, ?_⟩
    rcases lt_trichotomy a b with less | same | more
    · exact absurd less (notLess even)
    · exact absurd same different
    · exact more

/-- Rules in the order of their keys. -/
def Sorted (rules : List Rule) : Prop :=
  rules.Pairwise fun first second => Rule.before first.key second.key = true

theorem mem_insertRule {rule other : Rule} {rules : List Rule}
    (member : other ∈ insertRule rule rules) : other = rule ∨ other ∈ rules := by
  induction rules with
  | nil => exact Or.inl (List.mem_singleton.mp member)
  | cons first rest ih =>
      rw [insertRule] at member
      split at member
      · exact Or.inr member
      · split at member
        · exact List.mem_cons.mp member
        · rcases List.mem_cons.mp member with rfl | later
          · exact Or.inr List.mem_cons_self
          · exact (ih later).imp_right (List.mem_cons_of_mem _)

theorem Sorted.insertRule {rules : List Rule} (sorted : Sorted rules) (rule : Rule) :
    Sorted (insertRule rule rules) := by
  induction rules with
  | nil => exact List.pairwise_singleton _ rule
  | cons first rest ih =>
      obtain ⟨head, tail⟩ := List.pairwise_cons.mp sorted
      rw [Renaming.insertRule]
      split
      · exact sorted
      next different =>
        split
        next before =>
          refine List.pairwise_cons.mpr ⟨fun other member => ?_, sorted⟩
          rcases List.mem_cons.mp member with rfl | later
          · exact before
          · exact Rule.before_trans before (head other later)
        next notBefore =>
          refine List.pairwise_cons.mpr ⟨fun other member => ?_, ih tail⟩
          rcases mem_insertRule member with rfl | later
          · exact Rule.before_total different (Bool.not_eq_true _ ▸ notBefore)
          · exact head other later

/-! ### The word of a name -/

/-- The replacement that ordered rules have for a name. -/
def image (rules : List Rule) (name : String) : Option String :=
  (rules.find? (·.key = name.toList)).map fun rule => String.ofList rule.replacement

/-- The word that a name becomes; none if the renaming has no rule for it. -/
def image? (r : Renaming) (name : String) : Option String :=
  image r.rules name

theorem image_cons (rule : Rule) (rest : List Rule) (name : String) :
    image (rule :: rest) name =
      if rule.key = name.toList then some (String.ofList rule.replacement) else image rest name := by
  rw [image, List.find?_cons]
  by_cases here : rule.key = name.toList
  · simp [here]
  · simp [here, image]

/-- A name whose key stands before all rules has none. -/
theorem image_of_before {rules : List Rule} {name : String}
    (before : ∀ rule ∈ rules, Rule.before name.toList rule.key = true) :
    image rules name = none := by
  rw [image, List.find?_eq_none.mpr, Option.map_none]
  intro rule member same
  have loop := before rule member
  rw [decide_eq_true_eq.mp same, Rule.before_irrefl] at loop
  cases loop

/-- **The first rule of a key counts.** -/
theorem image_insertRule {rules : List Rule} (sorted : Sorted rules) (key word name : String) :
    image (insertRule ⟨key.toList, word.toList⟩ rules) name =
      (image rules name).or (if name = key then some word else none) := by
  induction rules with
  | nil =>
      rw [insertRule, image_cons]
      simp only [String.toList_inj, String.ofList_toList, @eq_comm String key]
      rfl
  | cons first rest ih =>
      obtain ⟨head, tail⟩ := List.pairwise_cons.mp sorted
      rw [insertRule]
      split
      next same =>
        by_cases asked : name = key
        · rw [image_cons, if_pos (by rw [← same, asked]), Option.some_or]
        · rw [if_neg asked, Option.or_none]
      next different =>
        split
        next before =>
          rw [image_cons]
          by_cases asked : name = key
          · subst asked
            -- the key stands before all others, so there was no rule for it
            have none : image (first :: rest) name = none := by
              refine image_of_before fun rule member => ?_
              rcases List.mem_cons.mp member with rfl | later
              · exact before
              · exact Rule.before_trans before (head rule later)
            simp [none]
          · have other : key.toList ≠ name.toList := fun same => asked (String.toList_inj.mp same).symm
            simp [asked, other]
        next =>
          rw [image_cons, image_cons, ih tail]
          split <;> simp

theorem lookup_filter_nonempty (pairs : List (String × String)) {name : String}
    (nonempty : name ≠ "") : (pairs.filter (·.1 ≠ "")).lookup name = pairs.lookup name := by
  induction pairs with
  | nil => rfl
  | cons pair rest ih =>
      obtain ⟨key, word⟩ := pair
      by_cases empty : key = ""
      · rw [List.filter_cons_of_neg (by simp [empty]), ih, NameMap.lookup_cons_eq,
          if_neg (by rw [empty]; exact nonempty)]
      · rw [List.filter_cons_of_pos (by simp [empty]), NameMap.lookup_cons_eq,
          NameMap.lookup_cons_eq, ih]

/-- **What a list of pairs makes of a name**: the first pair of the name says. -/
theorem image?_ofPairs (pairs : List (String × String)) {name : String} (nonempty : name ≠ "") :
    (ofPairs pairs).image? name = pairs.lookup name := by
  have inserted : ∀ (kept : List (String × String)) {rules : List Rule}, Sorted rules →
      image (kept.foldl (fun rules pair =>
        insertRule ⟨pair.1.toList, pair.2.toList⟩ rules) rules) name =
        (image rules name).or (kept.lookup name) := by
    intro kept
    induction kept with
    | nil => intro rules _; simp
    | cons pair rest ih =>
        intro rules sorted
        rw [List.foldl_cons, ih (sorted.insertRule _), image_insertRule sorted, Option.or_assoc,
          NameMap.lookup_cons_eq]
        split <;> simp
  refine (inserted (pairs.filter (·.1 ≠ "")) List.Pairwise.nil).trans ?_
  rw [lookup_filter_nonempty pairs nonempty]
  rfl

/-- **What a symbol table makes of a name**: the word of what the name means. -/
theorem image?_ofTable (table : SymbolTable) (registry : Registry) {name : String}
    (nonempty : name ≠ "") :
    (ofTable table registry).image? name =
      (table.resolve? name).map registry.identifierOf := by
  have mapped (entries : List (String × String)) :
      (entries.map fun entry => (entry.1, registry.identifierOf entry.2)).lookup name =
        (entries.lookup name).map registry.identifierOf := by
    induction entries with
    | nil => rfl
    | cons entry rest ih =>
        rw [List.map_cons, NameMap.lookup_cons_eq, NameMap.lookup_cons_eq, ih]
        split <;> rfl
  rw [ofTable, image?_ofPairs _ nonempty]
  refine (mapped (table.own.entries ++ table.seen.entries)).trans ?_
  rw [List.lookup_append, SymbolTable.resolve?_eq]
  rfl

end Renaming

/-! ### Definition and use -/

/-- What some module declares is registered. -/
theorem Build.WellNamed.registered {b : Build} (named : b.WellNamed) {q : String}
    (declares : b.Declares q) : ∃ word, b.registry.get? q = some word := by
  obtain ⟨i, d, name, here, found⟩ := declares
  exact Option.isSome_iff_exists.mp
    ((named.module here).own_registered _ (NameMap.mem_entries_of_find? found))

/-- What a module's name means, its renaming writes as the registered word. -/
theorem image?_of_resolve? {t : SymbolTable} {registry : Registry} {name q word : String}
    (nonempty : name ≠ "") (means : t.resolve? name = some q) (known : registry.get? q = some word) :
    (Renaming.ofTable t registry).image? name = some word := by
  rw [Renaming.image?_ofTable t registry nonempty, means, Option.map_some,
    Registry.identifierOf_of_get? known]

/-- **Definition and use are renamed to the same word.**  For every file tree, search
table, policy and entry, in the build that a scan leaves, also one that failed: whatever
a module sees under an alias is declared by a module of the graph and registered; the
renaming of the one writes the alias as that word, unless it declares the alias itself,
and the renaming of the other the declared name.  No name of any table is left to the
identifier that an unregistered name would get. -/
theorem definition_use_same_word (tree : FileTree) (entry : Path) (table : SearchTable)
    (wildcard : WildcardPolicy) (cycles : CyclePolicy) (diagnostics : List Diagnostic) :
    let b := (({ table, wildcard, cycles, diagnostics } : Build).scanPath tree entry).2
    (∀ i m label q, b.graph.module? i = some m → m.symbols.seen.find? label = some q →
      ∃ j d name word, b.graph.module? j = some d ∧ q = qualify d.scope name ∧
        d.symbols.own.find? name = some q ∧ b.registry.get? q = some word ∧
        (m.symbols.own.contains label = false →
          (Renaming.ofTable m.symbols b.registry).image? label = some word) ∧
        (Renaming.ofTable d.symbols b.registry).image? name = some word) ∧
    ∀ i m name q, b.graph.module? i = some m →
      (m.symbols.own.find? name = some q ∨ m.symbols.seen.find? name = some q) →
      (b.registry.get? q).isSome := by
  intro b
  have named : b.WellNamed :=
    wellNamed_scanPath (wellNamed_start table wildcard cycles diagnostics) tree entry
  refine ⟨?_, ?_⟩
  · intro i m label q here sees
    have seen := NameMap.mem_entries_of_find? sees
    have declares := (named.module here).seen_declared _ seen
    obtain ⟨word, known⟩ := named.registered declares
    obtain ⟨j, d, name, there, found⟩ := declares
    have identifier := (named.module there).own_identifier _ (NameMap.mem_entries_of_find? found)
    refine ⟨j, d, name, word, there, (named.module there).own_find? found, found, known, ?_, ?_⟩
    · intro undeclared
      refine image?_of_resolve? ((named.module here).seen_named _ seen) ?_ known
      have absent : m.symbols.own.find? label = none := by
        rw [NameMap.contains, Option.isSome_eq_false_iff] at undeclared
        exact Option.isNone_iff_eq_none.mp undeclared
      rw [SymbolTable.resolve?_eq, absent, Option.none_or]
      exact sees
    · refine image?_of_resolve? identifier.ne_empty ?_ known
      rw [SymbolTable.resolve?_eq, found, Option.some_or]
  · intro i m name q here inTable
    have member := inTable.imp NameMap.mem_entries_of_find? NameMap.mem_entries_of_find?
    obtain ⟨word, known⟩ := named.registered ((named.module here).declares_of_mem here member)
    rw [known]
    rfl

end Amalgam
