import Amalgam.Proofs.FreshNames
import Mathlib.Data.List.Induction
import Mathlib.Order.Bounds.Basic

/-!
# How identifiers are given out

A registry gives every name one identifier and never takes it back.  This module follows a
registry through a whole history of registrations, from the empty one on.

**The search for an identifier ends.**  It tries the flattened name, then the same with the
numbers 2, 3, … added, and has no bound of its own.  `Seeks` is the search as it goes, try by
try, so that it relates a start to a result exactly if the search that starts there ends with
that result, and the counter never passes a limit.  It always ends (`seeks_freshName`), since the
candidates are all different and there are only so many taken names; and where it ends is the
first free candidate (`Seeks.firstFree`).  The counter needs two numbers more than there are
taken names: one of 32 bits, which ends at `2 ^ 31 - 1`, is enough for `2 ^ 31 - 3` of them.

**Names and identifiers lead to each other.**  A registration enters the name with its
identifier and the identifier with its owner.  Neither map has a key twice, that of the names
because a known name is not registered again, and that of the owners because the search ends at
an identifier without an owner.  So each is the inverse of the other
(`Registry.Exact.get?_eq_some_iff_owner?`).

## Main statements

* `seeks_freshName`, `Seeks.firstFree`
* `Registry.names_after` — names in order of first registration
* `registry_assigns_for_good`
-/

namespace Amalgam

/-! ### The search for a free name -/

/-- **The search for a free name**: the candidate to try, the number of the one after it, and
the name at which the search ends.  The number is a counter that holds `limit` at most. -/
inductive Seeks (taken : List String) (base : String) (limit : Nat) :
    String → Nat → String → Prop where
  | ends {candidate : String} {n : Nat} (free : candidate ∉ taken) :
      Seeks taken base limit candidate n candidate
  | goesOn {candidate found : String} {n : Nat} (occupied : candidate ∈ taken) (room : n < limit)
      (later : Seeks taken base limit (numbered base n) (n + 1) found) :
      Seeks taken base limit candidate n found

/-- **The name is the first free one**: the base, or the base with the least free number. -/
def FirstFree (taken : List String) (base name : String) : Prop :=
  (base ∉ taken ∧ name = base) ∨
    base ∈ taken ∧ ∃ n, IsLeast {n | 2 ≤ n ∧ numbered base n ∉ taken} n ∧ name = numbered base n

section Search

variable {taken : List String} {base : String} {limit : Nat}

/-- A search goes on through numbers that are taken to one that is free, within its limit. -/
theorem seeks_numbered {j : Nat} : ∀ {n : Nat}, (∀ i < j, numbered base (n + i) ∈ taken) →
    numbered base (n + j) ∉ taken → n + j < limit →
    Seeks taken base limit (numbered base n) (n + 1) (numbered base (n + j)) := by
  induction j with
  | zero =>
      intro n _ free _
      exact .ends free
  | succ j ih =>
      intro n occupied free room
      rw [show n + (j + 1) = n + 1 + j by omega] at free ⊢
      have later : ∀ i < j, numbered base (n + 1 + i) ∈ taken := by
        intro i before
        rw [show n + 1 + i = n + (i + 1) by omega]
        exact occupied (i + 1) (by omega)
      exact .goesOn (occupied 0 (Nat.succ_pos j)) (by omega) (ih later free (by omega))

/-- **Every search ends**, and `freshName` says where; a counter that holds two more than there
are taken names is enough. -/
theorem seeks_freshName (enough : taken.length + 2 ≤ limit) :
    Seeks taken base limit base 2 (freshName taken base) := by
  unfold freshName
  split
  next occupied =>
    rw [List.contains_iff_mem] at occupied
    obtain ⟨k, bound, free⟩ := exists_numbered_notMem occupied
    obtain ⟨j, least, found, isFree, before⟩ := freshFrom_eq_numbered (Nat.le_of_lt bound) free
    rw [found]
    exact .goesOn occupied (by omega) (seeks_numbered before isFree (by omega))
  next absent => exact .ends (by simpa using absent)

/-- Where a search among the numbered names ends, no number before was free. -/
theorem Seeks.exists_number {candidate found : String} {next : Nat}
    (seeks : Seeks taken base limit candidate next found) :
    ∀ {n : Nat}, candidate = numbered base n → next = n + 1 →
      ∃ m, n ≤ m ∧ found = numbered base m ∧ numbered base m ∉ taken ∧
        ∀ k, n ≤ k → k < m → numbered base k ∈ taken := by
  induction seeks with
  | ends free =>
      rintro n rfl -
      exact ⟨n, Nat.le_refl n, rfl, free, fun k least below => absurd below (by omega)⟩
  | goesOn occupied room later ih =>
      rintro n rfl rfl
      obtain ⟨m, after, found, free, before⟩ := ih rfl rfl
      refine ⟨m, by omega, found, free, fun k least below => ?_⟩
      by_cases first : k = n
      · rw [first]
        exact occupied
      · exact before k (by omega) below

/-- **A search ends at the first free name.** -/
theorem Seeks.firstFree {found : String} (seeks : Seeks taken base limit base 2 found) :
    FirstFree taken base found := by
  cases seeks with
  | ends free => exact Or.inl ⟨free, rfl⟩
  | goesOn occupied room later =>
      obtain ⟨m, after, same, free, before⟩ := later.exists_number rfl rfl
      refine Or.inr ⟨occupied, m, ⟨⟨after, free⟩, ?_⟩, same⟩
      rintro k ⟨least, freeToo⟩
      by_contra smaller
      exact freeToo (before k least (Nat.lt_of_not_le smaller))

end Search

/-! ### Histories -/

namespace Registry

/-- The registry after some names were registered, one after the other. -/
def registerAll (r : Registry) (names : List String) : Registry :=
  names.foldl register r

/-- The registry after a history of registrations. -/
def after (history : List String) : Registry :=
  ({} : Registry).registerAll history

/-- The names of a registry, in the order of its entries. -/
def names (r : Registry) : List String :=
  r.entries.map Prod.fst

/-- A name is registered at the end, unless it was before. -/
theorem names_register (r : Registry) (q : String) :
    (r.register q).names = insertLast r.names q := by
  have known : (r.get? q).isSome = r.names.contains q := by
    rw [Bool.eq_iff_iff, List.contains_iff_mem, get?, List.lookup_isSome_iff, names, List.mem_map]
    constructor
    · rintro ⟨entry, member, same⟩
      exact ⟨entry, member, (eq_of_beq same).symm⟩
    · rintro ⟨entry, member, rfl⟩
      exact ⟨entry, member, beq_self_eq_true entry.1⟩
  unfold register insertLast
  rw [known]
  split
  · rfl
  · simp [names]

/-- **The names stand in the order of their first registration.** -/
theorem names_after (history : List String) : (after history).names = history.eraseDups := by
  induction history using List.reverseRecOn with
  | nil => rfl
  | append_singleton before q ih =>
      have last : after (before ++ [q]) = (after before).register q := List.foldl_concat ..
      rw [last, names_register, ih, List.eraseDups_append, insertLast]
      by_cases known : q ∈ before
      · simp [known, List.removeAll]
      · simp [known, List.removeAll, List.eraseDups_cons]

/-- **Names and identifiers are free of repetitions**, and the owners are in step with the
entries. -/
structure Exact (r : Registry) : Prop where
  names : r.names.Nodup
  identifiers : r.Injective

theorem Exact.registerAll {r : Registry} (exact : r.Exact) (names : List String) :
    (r.registerAll names).Exact := by
  induction names generalizing r with
  | nil => exact exact
  | cons q rest ih =>
      refine ih ⟨?_, exact.identifiers.register q⟩
      rw [names_register]
      exact nodup_insertLast exact.names q

theorem exact_after (history : List String) : (after history).Exact :=
  Exact.registerAll (r := {}) ⟨List.nodup_nil, injective_empty⟩ history

/-- **Names lead to identifiers as identifiers lead to their owners.** -/
theorem Exact.get?_eq_some_iff_owner? {r : Registry} (exact : r.Exact) {q identifier : String} :
    r.get? q = some identifier ↔ r.owner? identifier = some q := by
  rw [get?, owner?, lookup_eq_some_iff_mem exact.names,
    lookup_eq_some_iff_mem exact.identifiers.distinct, exact.identifiers.inStep]
  constructor
  · exact fun member => List.mem_map.mpr ⟨_, member, rfl⟩
  · rintro member
    obtain ⟨entry, there, same⟩ := List.mem_map.mp member
    cases same
    exact there

/-- What was given out stays. -/
theorem get?_registerAll_of_get? {r : Registry} {q identifier : String}
    (found : r.get? q = some identifier) (names : List String) :
    (r.registerAll names).get? q = some identifier := by
  induction names generalizing r with
  | nil => exact found
  | cons other rest ih => exact ih (get?_register_of_get? other found)

/-- A name that is new gets the identifier that is free for it. -/
theorem get?_register_of_none {r : Registry} {q : String} (new : r.get? q = none) :
    (r.register q).get? q = some (freshName r.identifiers (flatten q)) := by
  have unknown : r.entries.lookup q = none := new
  rw [register, new, if_neg (by simp), get?, List.lookup_append, unknown]
  simp

theorem get?_after_eq_none {history : List String} {q : String} (new : q ∉ history) :
    (after history).get? q = none := by
  rw [← Option.not_isSome_iff_eq_none, get?, List.lookup_isSome_iff]
  rintro ⟨entry, member, same⟩
  have named : entry.1 ∈ (after history).names := List.mem_map_of_mem member
  rw [names_after, List.mem_eraseDups, ← eq_of_beq same] at named
  exact new named

/-- **The entries are the names with their identifiers**, in order of first registration. -/
theorem entries_after (history : List String) :
    (after history).entries =
      history.eraseDups.map fun q => (q, (after history).identifierOf q) := by
  have leads : ∀ entry ∈ (after history).entries,
      entry = (entry.1, (after history).identifierOf entry.1) := by
    rintro ⟨q, identifier⟩ member
    have found : (after history).get? q = some identifier :=
      (lookup_eq_some_iff_mem (exact_after history).names).mpr member
    rw [identifierOf, found, Option.getD_some]
  rw [← names_after, names, List.map_map]
  exact (List.map_id _).symm.trans (List.map_congr_left leads)

end Registry

/-- **Identifiers are given out once and for all.**  After any history of registrations, the
identifiers of names and the owners of identifiers are inverse to each other, distinct names
have distinct identifiers, and the names with their identifiers stand in the order of first
registration.  If one more name is registered, it has an identifier: the search for that of a
new name ends, with a counter that holds two more than there are identifiers, at the flattened
name if it is free, or else at the one with the least free number from two on.  Whatever is
registered later, that is the identifier of the name. -/
theorem registry_assigns_for_good (history : List String) :
    (∀ q identifier, (Registry.after history).get? q = some identifier ↔
      (Registry.after history).owner? identifier = some q) ∧
    (∀ q₁ q₂ identifier, (Registry.after history).get? q₁ = some identifier →
      (Registry.after history).get? q₂ = some identifier → q₁ = q₂) ∧
    (Registry.after history).entries =
      history.eraseDups.map (fun q => (q, (Registry.after history).identifierOf q)) ∧
    ∀ q, ∃ identifier,
      ((Registry.after history).register q).get? q = some identifier ∧
      (q ∉ history →
        (∀ limit, (Registry.after history).identifiers.length + 2 ≤ limit →
          Seeks (Registry.after history).identifiers (flatten q) limit (flatten q) 2 identifier) ∧
        FirstFree (Registry.after history).identifiers (flatten q) identifier) ∧
      ∀ later,
        (((Registry.after history).register q).registerAll later).get? q = some identifier ∧
        (((Registry.after history).register q).registerAll later).identifierOf q = identifier ∧
        ((((Registry.after history).register q).registerAll later).register q).get? q =
          some identifier := by
  have exact := Registry.exact_after history
  refine ⟨fun q identifier => exact.get?_eq_some_iff_owner?,
    fun q₁ q₂ identifier first second => exact.identifiers.eq_of_get? first second,
    Registry.entries_after history, fun q => ?_⟩
  obtain ⟨identifier, given⟩ := Option.isSome_iff_exists.mp
    ((Registry.after history).get?_register_self q)
  refine ⟨identifier, given, fun new => ?_, fun later => ?_⟩
  · rw [Registry.get?_register_of_none (Registry.get?_after_eq_none new)] at given
    rw [← Option.some.inj given]
    exact ⟨fun limit enough => seeks_freshName enough, (seeks_freshName (Nat.le_refl _)).firstFree⟩
  · have stays := Registry.get?_registerAll_of_get? given later
    refine ⟨stays, ?_, Registry.get?_register_of_get? q stays⟩
    rw [Registry.identifierOf, stays, Option.getD_some]

/-- A number is added to a name that already ends in one. -/
example : (Registry.after ["a__b.c", "a.b__c", "a__b.c", "a.b__c_2"]).entries =
    [("a__b.c", "a__b__c"), ("a.b__c", "a__b__c_2"), ("a.b__c_2", "a__b__c_2_2")] := by
  decide +kernel

end Amalgam
