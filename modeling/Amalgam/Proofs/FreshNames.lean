import Amalgam.Symbol.Registry
import Amalgam.Symbol.Table
import Mathlib.Data.List.Nodup

/-!
# Names in maps, and names that nobody has

The laws of the small containers that a build is made of, each stated through a
view: `NameMap.find?` for a map, membership for a list without repetition, and
`Registry.get?` for the registry.  Later modules use these laws and never open
the containers.

## Free names

`freshName taken base` tries `base`, then `base_2`, `base_3`, … for at most as
many numbers as there are taken names.  The bound is enough because the
candidates are pairwise distinct: if all of them were taken, more distinct names
would be taken than there are.  `freshName_cases` is that argument, with the bound
on the number that it gives, and the registry's injectivity (`Registry.Injective`)
rests on it alone.

## Main statements

* `NameMap.find?_insert` — a map after an insertion
* `numbered_injective`, `freshName_cases`, `freshName_notMem`
* `Registry.Injective` and its preservation, `Registry.get?_register_self`
-/

namespace Amalgam

/-! ### Lists of pairs -/

section Pairs

variable {α β : Type} [BEq α] [LawfulBEq α] {pairs : List (α × β)} {key : α} {value : β}

theorem mem_of_lookup (found : pairs.lookup key = some value) : (key, value) ∈ pairs := by
  obtain ⟨before, after, split, -⟩ := List.lookup_eq_some_iff.mp found
  simp [split]

theorem lookup_isSome_of_mem (member : (key, value) ∈ pairs) : (pairs.lookup key).isSome :=
  List.lookup_isSome_iff.mpr ⟨(key, value), member, beq_self_eq_true key⟩

/-- Where all keys are different, a pair is what its key leads to. -/
theorem lookup_eq_some_iff_mem (distinct : (pairs.map Prod.fst).Nodup) :
    pairs.lookup key = some value ↔ (key, value) ∈ pairs := by
  refine ⟨mem_of_lookup, fun member => ?_⟩
  obtain ⟨other, found⟩ := Option.isSome_iff_exists.mp (lookup_isSome_of_mem member)
  have same := List.inj_on_of_nodup_map distinct (mem_of_lookup found) member rfl
  rw [found, (Prod.mk.inj same).2]

end Pairs

/-! ### Maps by name -/

namespace NameMap

variable {α : Type}

/-- A list of entries, looked up from its first one on. -/
theorem lookup_cons_eq (name first : String) (value : α) (rest : List (String × α)) :
    ((first, value) :: rest).lookup name =
      if name = first then some value else rest.lookup name := by
  by_cases equal : name = first
  · simp [equal]
  · have differ : (name == first) = false := beq_eq_false_iff_ne.mpr equal
    simp [List.lookup_cons, differ, equal]

/-- An inserted entry hides nothing but an entry of its own name. -/
theorem lookup_insertEntry (name other : String) (value : α)
    (entries : List (String × α)) :
    (insertEntry name value entries).lookup other =
      if other = name then some value else entries.lookup other := by
  induction entries with
  | nil => rw [insertEntry, lookup_cons_eq]
  | cons entry rest ih =>
      obtain ⟨first, old⟩ := entry
      rw [insertEntry]
      split
      next same =>
        subst same
        rw [lookup_cons_eq, lookup_cons_eq]
        split <;> rfl
      next distinct =>
        split
        · rw [lookup_cons_eq]
        · rw [lookup_cons_eq, lookup_cons_eq, ih]
          by_cases equal : other = first
          · subst equal
            rw [if_pos rfl, if_neg (Ne.symm distinct), if_pos rfl]
          · rw [if_neg equal, if_neg equal]

@[simp] theorem find?_empty (name : String) : ({} : NameMap α).find? name = none := rfl

theorem find?_insert (m : NameMap α) (name other : String) (value : α) :
    (m.insert name value).find? other =
      if other = name then some value else m.find? other :=
  lookup_insertEntry name other value m.entries

/-- What stands in a map after an insertion is the new entry or was there. -/
theorem mem_entries_insert {m : NameMap α} {name : String} {value : α}
    {entry : String × α} (member : entry ∈ (m.insert name value).entries) :
    entry = (name, value) ∨ entry ∈ m.entries := by
  obtain ⟨entries⟩ := m
  change entry ∈ insertEntry name value entries at member
  change entry = (name, value) ∨ entry ∈ entries
  induction entries with
  | nil => simpa [insertEntry] using member
  | cons first rest ih =>
      obtain ⟨other, old⟩ := first
      rw [insertEntry] at member
      split at member
      · rcases List.mem_cons.mp member with new | old
        · exact Or.inl new
        · exact Or.inr (List.mem_cons_of_mem _ old)
      · split at member
        · exact (List.mem_cons.mp member)
        · rcases List.mem_cons.mp member with head | tail
          · exact Or.inr (head ▸ List.mem_cons_self)
          · rcases ih tail with new | old
            · exact Or.inl new
            · exact Or.inr (List.mem_cons_of_mem _ old)

/-- What a name leads to stands in the map. -/
theorem mem_entries_of_find? {m : NameMap α} {name : String} {value : α}
    (found : m.find? name = some value) : (name, value) ∈ m.entries :=
  mem_of_lookup found

/-- A name that stands in a map leads to something. -/
theorem find?_isSome_of_mem {m : NameMap α} {entry : String × α}
    (member : entry ∈ m.entries) : (m.find? entry.1).isSome :=
  lookup_isSome_of_mem member

end NameMap

/-! ### Lists without repetition -/

@[simp] theorem mem_insertLast {α : Type} [BEq α] [LawfulBEq α] {xs : List α} {x y : α} :
    y ∈ insertLast xs x ↔ y ∈ xs ∨ y = x := by
  unfold insertLast
  by_cases present : xs.contains x = true
  · rw [if_pos present]
    refine ⟨Or.inl, ?_⟩
    rintro (old | rfl)
    · exact old
    · exact List.contains_iff_mem.mp present
  · rw [if_neg present]
    simp

theorem nodup_insertLast {α : Type} [BEq α] [LawfulBEq α] {xs : List α} (nodup : xs.Nodup)
    (x : α) : (insertLast xs x).Nodup := by
  unfold insertLast
  split
  · exact nodup
  next new =>
    have fresh : x ∉ xs := by simpa using new
    exact (List.perm_append_singleton x xs).nodup_iff.mpr (List.nodup_cons.mpr ⟨fresh, nodup⟩)

/-! ### Free names -/

/-- Numbers keep the names of one base apart. -/
theorem numbered_injective (base : String) : Function.Injective (numbered base) := by
  intro m n equal
  have texts : (base ++ "_").toList ++ (Nat.repr m).toList =
      (base ++ "_").toList ++ (Nat.repr n).toList := by
    rw [← String.toList_append, ← String.toList_append]
    exact congrArg String.toList equal
  have digits : Nat.toDigits 10 m = Nat.toDigits 10 n := by
    simpa only [Nat.toList_repr] using List.append_cancel_left texts
  have values := congrArg (fun ds => Nat.ofDigitChars 10 ds 0) digits
  simpa [Nat.ofDigitChars_toDigits] using values

/-- A number makes a name longer. -/
theorem numbered_ne (base : String) (n : Nat) : numbered base n ≠ base := by
  intro equal
  have lengths := congrArg (fun s : String => s.toList.length) equal
  simp only [numbered, String.toList_append, List.length_append] at lengths
  have underscore : "_".toList.length = 1 := rfl
  omega

/-- A search that meets a free name within its tries ends at the first one, which is not behind
the one it meets. -/
theorem freshFrom_eq_numbered {taken : List String} {base : String} :
    ∀ {tries n k : Nat}, k ≤ tries → numbered base (n + k) ∉ taken →
      ∃ j ≤ k, freshFrom taken base tries n = numbered base (n + j) ∧
        numbered base (n + j) ∉ taken ∧ ∀ i < j, numbered base (n + i) ∈ taken := by
  intro tries
  induction tries with
  | zero =>
      rintro n k bound free
      obtain rfl : k = 0 := by omega
      exact ⟨0, Nat.le_refl 0, rfl, free, fun i before => absurd before (Nat.not_lt_zero i)⟩
  | succ tries ih =>
      rintro n k bound free
      rw [freshFrom]
      split
      next present =>
        rw [List.contains_iff_mem] at present
        -- the number tried first is taken, so the free one comes later
        have later : k ≠ 0 := by
          rintro rfl
          exact free present
        obtain ⟨j, least, found, isFree, passed⟩ := ih (n := n + 1) (k := k - 1) (by omega)
          (by rwa [show n + 1 + (k - 1) = n + k by omega])
        refine ⟨j + 1, by omega, ?_⟩
        rw [show n + (j + 1) = n + 1 + j by omega]
        refine ⟨found, isFree, fun i before => ?_⟩
        cases i with
        | zero => exact present
        | succ i =>
            rw [show n + (i + 1) = n + 1 + i by omega]
            exact passed i (by omega)
      next absent =>
        exact ⟨0, Nat.zero_le k, rfl, by simpa using absent,
          fun i before => absurd before (Nat.not_lt_zero i)⟩

/-- Among as many numbers as there are taken names one is free, if the base is taken
too. -/
theorem exists_numbered_notMem {taken : List String} {base : String}
    (present : base ∈ taken) : ∃ k < taken.length, numbered base (2 + k) ∉ taken := by
  by_contra none
  push Not at none
  let candidates := base :: (List.range taken.length).map fun k => numbered base (2 + k)
  have distinct : candidates.Nodup := by
    refine List.nodup_cons.mpr ⟨?_, ?_⟩
    · rw [List.mem_map]
      rintro ⟨k, -, equal⟩
      exact numbered_ne base _ equal
    · refine List.Nodup.map ?_ List.nodup_range
      intro i j equal
      have := numbered_injective base equal
      omega
  have inside : candidates ⊆ taken := by
    intro name member
    rcases List.mem_cons.mp member with rfl | numberedMember
    · exact present
    · obtain ⟨k, range, rfl⟩ := List.mem_map.mp numberedMember
      exact none k (List.mem_range.mp range)
  have tooMany := distinct.length_le_of_subset inside
  simp only [candidates, List.length_cons, List.length_map, List.length_range] at tooMany
  omega

/-- **The name found is the one asked for, or that with a number**, which is at most one more
than there are taken names.  So a counter of 32 bits, which holds numbers below `2 ^ 31`, is
enough unless nearly as many names are taken. -/
theorem freshName_cases (taken : List String) (base : String) :
    (freshName taken base = base ∧ base ∉ taken) ∨
      ∃ n, 2 ≤ n ∧ n ≤ taken.length + 1 ∧ freshName taken base = numbered base n ∧
        numbered base n ∉ taken := by
  unfold freshName
  split
  next present =>
    obtain ⟨k, bound, free⟩ := exists_numbered_notMem (List.contains_iff_mem.mp present)
    obtain ⟨j, least, found, isFree, -⟩ := freshFrom_eq_numbered (Nat.le_of_lt bound) free
    exact Or.inr ⟨2 + j, by omega, by omega, found, isFree⟩
  next absent => exact Or.inl ⟨rfl, by simpa using absent⟩

/-- **The name found is free**, whatever names are taken. -/
theorem freshName_notMem (taken : List String) (base : String) :
    freshName taken base ∉ taken := by
  rcases freshName_cases taken base with ⟨same, free⟩ | ⟨n, -, -, same, free⟩
  · rwa [same]
  · rwa [same]

/-! ### The registry -/

namespace Registry

/-- **No identifier belongs to two names**: the owners are the entries read backwards, and no
identifier comes twice among them. -/
structure Injective (r : Registry) : Prop where
  inStep : r.owners = r.entries.map Prod.swap
  distinct : r.identifiers.Nodup

theorem injective_empty : ({} : Registry).Injective :=
  ⟨rfl, List.nodup_nil⟩

theorem Injective.register {r : Registry} (injective : r.Injective) (qualified : String) :
    (r.register qualified).Injective := by
  unfold Registry.register
  split
  · exact injective
  · have free := freshName_notMem r.identifiers (flatten qualified)
    refine ⟨?_, ?_⟩
    · rw [injective.inStep, List.map_append]
      rfl
    · simp only [identifiers, List.map_append, List.map_cons, List.map_nil]
      refine List.Nodup.append injective.distinct (List.nodup_singleton _) ?_
      intro identifier old new
      exact free (List.mem_singleton.mp new ▸ old)

/-- What a name leads to is an entry. -/
theorem mem_entries_of_get? {r : Registry} {qualified identifier : String}
    (found : r.get? qualified = some identifier) : (qualified, identifier) ∈ r.entries :=
  mem_of_lookup found

/-- **Distinct names have distinct identifiers.** -/
theorem Injective.eq_of_get? {r : Registry} (injective : r.Injective)
    {q₁ q₂ identifier : String} (first : r.get? q₁ = some identifier)
    (second : r.get? q₂ = some identifier) : q₁ = q₂ := by
  have owned {q : String} (found : r.get? q = some identifier) : (identifier, q) ∈ r.owners := by
    rw [injective.inStep]
    exact List.mem_map_of_mem (mem_entries_of_get? found)
  exact congrArg Prod.snd (List.inj_on_of_nodup_map injective.distinct (owned first) (owned second)
    rfl)

/-- Registering keeps what a name already leads to. -/
theorem get?_register_of_get? {r : Registry} {q identifier : String} (other : String)
    (found : r.get? q = some identifier) : (r.register other).get? q = some identifier := by
  unfold register
  split
  · exact found
  · simp only [get?, List.lookup_append] at found ⊢
    rw [found]
    rfl

/-- A registered name leads to something. -/
theorem get?_register_self (r : Registry) (q : String) : ((r.register q).get? q).isSome := by
  unfold register
  split
  next known => exact known
  next unknown =>
    simp only [get?, Option.not_isSome_iff_eq_none] at unknown ⊢
    simp [List.lookup_append, unknown]

/-- A new entry has the identifier that is free for it. -/
theorem mem_entries_register {r : Registry} {q : String} {entry : String × String}
    (member : entry ∈ (r.register q).entries) :
    entry ∈ r.entries ∨ entry = (q, freshName r.identifiers (flatten q)) := by
  unfold register at member
  split at member
  · exact Or.inl member
  · simpa using member

end Registry

end Amalgam
