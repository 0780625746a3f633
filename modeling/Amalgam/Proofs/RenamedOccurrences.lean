import Amalgam.Proofs.DefinitionUse
import Amalgam.Proofs.RenamedLines

/-!
# Renamed occurrences

A renaming goes through the code of a line from left to right, tries keys in the order of
its rules and leaps over what it has replaced.  What it does can be said without any of
that.  An occurrence of a key counts if it lies in one code segment, does not continue a
longer name on either side and does not start at a byte to keep; at one place the longest
such key is chosen.  The renamed line is the line with all chosen occurrences replaced at
once.

The bridge is `Renders`: the rest of a line, and what it becomes when the chosen
occurrences from there on are replaced.  A copied character and a replaced key each keep
it (`Renders.copy`, `Renders.swap`), so the scan of a segment and that of a line do.  That
the scan may leap over a key is because no occurrence starts inside another one: the
character before it would belong to a name (`CodePlace.Fits.apart`).

## Main statements

* `Renaming.perm_rules_ofPairs`, `Renaming.ofPairs_perm` — rules are the pairs, in order
* `Renaming.CodePlace.Fits.apart` — occurrences do not overlap
* `Renaming.code_renders`, `Renaming.segments_renders`
* `Renaming.line_replaces_chosen`
-/

namespace Amalgam

namespace Renaming

/-! ### Rules and pairs -/

/-- The rule that a pair asks for. -/
def Rule.ofPair (pair : String × String) : Rule :=
  ⟨pair.1.toList, pair.2.toList⟩

/-- A rule with a new key is added to the others. -/
theorem perm_insertRule {rule : Rule} {rules : List Rule}
    (fresh : ∀ other ∈ rules, rule.key ≠ other.key) :
    (insertRule rule rules).Perm (rule :: rules) := by
  induction rules with
  | nil => exact List.Perm.refl _
  | cons first rest ih =>
      have other := fresh first List.mem_cons_self
      rw [insertRule, if_neg other]
      split
      · exact List.Perm.refl _
      · have later := ih fun r member => fresh r (List.mem_cons_of_mem _ member)
        exact (later.cons first).trans (List.Perm.swap rule first rest)

theorem sorted_ofPairs (pairs : List (String × String)) : Sorted (ofPairs pairs).rules := by
  have inserted : ∀ (kept : List (String × String)) {rules : List Rule}, Sorted rules →
      Sorted (kept.foldl (fun rules pair =>
        insertRule ⟨pair.1.toList, pair.2.toList⟩ rules) rules) := by
    intro kept
    induction kept with
    | nil => exact fun sorted => sorted
    | cons pair rest ih => exact fun sorted => ih (sorted.insertRule _)
  exact inserted _ List.Pairwise.nil

/-- **Pairs with distinct keys are the rules**, up to their order. -/
theorem perm_rules_ofPairs {pairs : List (String × String)}
    (distinct : (pairs.map Prod.fst).Nodup) (nonempty : ∀ pair ∈ pairs, pair.1 ≠ "") :
    (ofPairs pairs).rules.Perm (pairs.map Rule.ofPair) := by
  have inserted : ∀ (kept : List (String × String)) {rules : List Rule},
      (kept.map Prod.fst).Nodup →
      (∀ pair ∈ kept, ∀ other ∈ rules, pair.1.toList ≠ other.key) →
      (kept.foldl (fun rules pair =>
        insertRule ⟨pair.1.toList, pair.2.toList⟩ rules) rules).Perm
          (kept.map Rule.ofPair ++ rules) := by
    intro kept
    induction kept with
    | nil => exact fun _ _ => List.Perm.refl _
    | cons pair rest ih =>
        intro rules distinct fresh
        obtain ⟨new, later⟩ := List.nodup_cons.mp distinct
        have added : (insertRule (Rule.ofPair pair) rules).Perm (Rule.ofPair pair :: rules) :=
          perm_insertRule (fresh pair List.mem_cons_self)
        refine (ih later fun next member other known => ?_).trans ?_
        · rcases List.mem_cons.mp (added.mem_iff.mp known) with rfl | old
          · intro same
            have named : next.1 = pair.1 := String.toList_inj.mp same
            exact new (named ▸ List.mem_map_of_mem member)
          · exact fresh next (List.mem_cons_of_mem _ member) other old
        · exact (added.append_left _).trans List.perm_middle
  have all : pairs.filter (·.1 ≠ "") = pairs :=
    List.filter_eq_self.mpr fun pair member => decide_eq_true (nonempty pair member)
  have whole := @inserted pairs [] distinct (by simp)
  rw [List.append_nil] at whole
  rw [ofPairs, all]
  exact whole

/-- Rules in order are determined by which rules they are. -/
theorem Sorted.eq_of_perm {rules rules' : List Rule} (sorted : Sorted rules)
    (sorted' : Sorted rules') (same : rules.Perm rules') : rules = rules' := by
  refine List.Perm.eq_of_pairwise (fun a b _ _ first second => ?_) sorted sorted' same
  have loop := Rule.before_trans first second
  rw [Rule.before_irrefl] at loop
  cases loop

/-- The order of pairs with distinct keys does not matter. -/
theorem ofPairs_perm {pairs reordered : List (String × String)} (same : reordered.Perm pairs)
    (distinct : (pairs.map Prod.fst).Nodup) (nonempty : ∀ pair ∈ pairs, pair.1 ≠ "") :
    ofPairs reordered = ofPairs pairs := by
  have rules := perm_rules_ofPairs distinct nonempty
  have rules' := perm_rules_ofPairs ((same.map Prod.fst).nodup_iff.mpr distinct)
    fun pair member => nonempty pair (same.mem_iff.mp member)
  have equal := (sorted_ofPairs reordered).eq_of_perm (sorted_ofPairs pairs)
    (rules'.trans ((same.map Rule.ofPair).trans rules.symm))
  exact congrArg Renaming.mk equal

/-- Two rules in order that have one key are one rule. -/
theorem Sorted.eq_of_key {rules : List Rule} (sorted : Sorted rules) {a b : Rule}
    (first : a ∈ rules) (second : b ∈ rules) (same : a.key = b.key) : a = b := by
  have distinct : (rules.map Rule.key).Nodup := by
    refine List.pairwise_map.mpr (List.Pairwise.imp (fun before equal => ?_) sorted)
    rw [equal, Rule.before_irrefl] at before
    cases before
  exact List.inj_on_of_nodup_map distinct first second same

/-- **Of the rules that fit, the first has the longest key.** -/
theorem ruleAt?_longest {r : Renaming} (sorted : Sorted r.rules) {after : Option Char}
    {cs : List Char} {rule other : Rule} (found : r.ruleAt? after cs = some rule)
    (member : other ∈ r.rules) (inside : other.key <+: cs)
    (ends : endsBefore ((cs.drop other.key.length).head? <|> after) = true) :
    other.key.length ≤ rule.key.length := by
  have fits : (other.key.isPrefixOf cs &&
      endsBefore ((cs.drop other.key.length).head? <|> after)) = true := by
    rw [Bool.and_eq_true]
    exact ⟨List.isPrefixOf_iff_prefix.mpr inside, ends⟩
  obtain ⟨-, rest, text, -⟩ := ruleAt?_eq_some found
  obtain ⟨-, tried, untried, whole, failed⟩ := List.find?_eq_some_iff_append.mp found
  rw [whole] at member sorted
  rcases List.mem_append.mp member with early | late
  · have no := failed other early
    rw [fits] at no
    cases no
  · rcases List.mem_cons.mp late with rfl | later
    · exact Nat.le_refl _
    · have before := (List.pairwise_cons.mp (List.pairwise_append.mp sorted).2.1).1 other later
      -- a longer key would continue this one, and so take more bytes
      by_contra longer
      obtain ⟨more, continued⟩ := List.prefix_of_prefix_length_le ⟨rest, text.symm⟩ inside
        (Nat.le_of_not_le longer)
      have wider := byteWidth_append rule.key more
      rw [continued] at wider
      have some : more ≠ [] := by
        rintro rfl
        rw [List.append_nil] at continued
        exact longer (continued ▸ Nat.le_refl _)
      have positive : 0 < byteWidth more := by
        cases more with
        | nil => exact absurd rfl some
        | cons c cs => exact byteWidth_cons_pos c cs
      simp only [Rule.before, Bool.or_eq_true, Bool.and_eq_true, decide_eq_true_eq, beq_iff_eq]
        at before
      omega

/-! ### Places in code -/

/-- **A key** is made of identifier characters and dots and starts with an identifier
character. -/
structure IsKey (key : List Char) : Prop where
  start : ∃ c cs, key = c :: cs ∧ isIdentChar c = true
  chars : ∀ c ∈ key, isIdentChar c = true ∨ c = '.'

theorem IsKey.ne_nil {key : List Char} (isKey : IsKey key) : key ≠ [] := by
  obtain ⟨c, cs, rfl, -⟩ := isKey.start
  exact List.cons_ne_nil c cs

/-- No name starts after a character of a key. -/
theorem IsKey.startsAfter_eq_false {key : List Char} (isKey : IsKey key) {c : Char}
    (member : c ∈ key) : startsAfter (some c) = false := by
  rcases isKey.chars c member with ident | rfl
  · simp [startsAfter, ident]
  · simp [startsAfter]

/-- A place in the code of a line: the segments in front, what the segment has left of the
place and right of it, and the segments behind. -/
structure CodePlace (segs : List Segment) where
  front : List Segment
  left : List Char
  rest : List Char
  rear : List Segment
  whole : segs = front ++ ⟨.code, left ++ rest⟩ :: rear

namespace CodePlace

variable {segs : List Segment}

/-- The line up to the place. -/
def passed (place : CodePlace segs) : List Char :=
  Segment.textOf place.front ++ place.left

/-- How many characters of the line are in front of the place. -/
def start (place : CodePlace segs) : Nat :=
  place.passed.length

/-- **A key fits at a place**: it lies in the segment, its first byte is not to be kept, and
on both sides of it no longer name goes on. -/
structure Fits (place : CodePlace segs) (keep : List Nat) (key : List Char) : Prop where
  inside : key <+: place.rest
  unkept : byteWidth place.passed ∉ keep
  begins : startsAfter place.passed.getLast? = true
  ends : endsBefore (place.rest.drop key.length ++ Segment.textOf place.rear).head? = true

theorem textOf_eq (place : CodePlace segs) :
    Segment.textOf segs = place.passed ++ (place.rest ++ Segment.textOf place.rear) := by
  refine (congrArg Segment.textOf place.whole).trans ?_
  simp [Segment.textOf, passed]

theorem Fits.rest_ne_nil {place : CodePlace segs} {keep : List Nat} {key : List Char}
    (fits : place.Fits keep key) (isKey : IsKey key) : place.rest ≠ [] := by
  intro empty
  have inside := fits.inside
  rw [empty, List.prefix_nil] at inside
  exact isKey.ne_nil inside

/-- Where a key fits, the scan looks for a rule. -/
theorem Fits.looked {place : CodePlace segs} {keep : List Nat} {key : List Char}
    (fits : place.Fits keep key) (isKey : IsKey key) {c : Char} {cs : List Char}
    (next : place.rest = c :: cs) :
    (startsAfter place.passed.getLast? && isIdentChar c &&
      !keep.contains (byteWidth place.passed)) = true := by
  have inside := fits.inside
  obtain ⟨d, ds, rfl, ident⟩ := isKey.start
  rw [next, List.cons_prefix_cons] at inside
  rw [inside.1] at ident
  simp [fits.begins, fits.unkept, ident]

/-- **Occurrences do not overlap.** -/
theorem Fits.apart {place later : CodePlace segs} {keep : List Nat} {key key' : List Char}
    (fits : place.Fits keep key) (isKey : IsKey key) (fits' : later.Fits keep key')
    (before : place.start < later.start) : place.start + key.length ≤ later.start := by
  by_contra overlap
  obtain ⟨rest, inside⟩ := fits.inside
  have upTo : place.passed ++ key <+: Segment.textOf segs :=
    ⟨rest ++ Segment.textOf place.rear, by rw [place.textOf_eq, ← inside]; simp⟩
  have reached : later.passed <+: Segment.textOf segs := ⟨_, later.textOf_eq.symm⟩
  have short : later.passed.length ≤ (place.passed ++ key).length := by
    rw [List.length_append]
    exact Nat.le_of_not_le overlap
  have within := List.prefix_of_prefix_length_le reached upTo short
  obtain ⟨more, continued⟩ := List.prefix_of_prefix_length_le
    ((List.prefix_append _ _).trans upTo) reached (Nat.le_of_lt before)
  -- the place comes after a character of the key
  rw [← continued, List.prefix_append_right_inj] at within
  have some : more ≠ [] := by
    rintro rfl
    rw [List.append_nil] at continued
    exact absurd before (by rw [start, start, continued]; exact Nat.lt_irrefl _)
  have begins := fits'.begins
  rw [← continued, List.getLast?_append_of_ne_nil _ some, List.getLast?_eq_getLast_of_ne_nil some,
    isKey.startsAfter_eq_false (within.subset (List.getLast_mem some))] at begins
  cases begins

/-- The segment at a character is the one that has the place. -/
theorem segment_eq (place : CodePlace segs) (some : place.rest ≠ []) {front rear : List Segment}
    {s : Segment} (split : segs = front ++ s :: rear)
    (after : (Segment.textOf front).length ≤ place.start)
    (within : place.start < (Segment.textOf front ++ s.text).length) :
    place.front = front ∧ ⟨.code, place.left ++ place.rest⟩ = s ∧ place.rear = rear := by
  have positive := List.length_pos_iff.mpr some
  have same := place.whole.symm.trans split
  rw [start, passed] at after within
  rcases List.append_eq_append_iff.mp same with ⟨between, longer, tail⟩ | ⟨between, shorter, tail⟩
  · cases between with
    | nil =>
        rw [List.append_nil] at longer
        obtain ⟨here, behind⟩ := List.cons.inj tail
        exact ⟨longer.symm, here, behind⟩
    | cons first others =>
        obtain ⟨here, -⟩ := List.cons.inj tail
        rw [longer, ← here] at after
        simp only [Segment.textOf, List.flatMap_append, List.flatMap_cons,
          List.length_append] at after
        omega
  · cases between with
    | nil =>
        rw [List.append_nil] at shorter
        obtain ⟨here, behind⟩ := List.cons.inj tail
        exact ⟨shorter, here.symm, behind.symm⟩
    | cons first others =>
        obtain ⟨here, -⟩ := List.cons.inj tail
        rw [shorter, ← here] at within
        simp only [Segment.textOf, List.flatMap_append, List.flatMap_cons,
          List.length_append] at within
        omega

/-- A place with a character behind it is known from where it is. -/
theorem eq_of_start {place other : CodePlace segs} (some : place.rest ≠ [])
    (some' : other.rest ≠ []) (same : place.start = other.start) : place = other := by
  have positive := List.length_pos_iff.mpr some'
  obtain ⟨fronts, here, rears⟩ := place.segment_eq some other.whole
    (by rw [same, start, passed, List.length_append]; omega)
    (by rw [same, start, passed]; simp only [List.length_append]; omega)
  have texts : place.left ++ place.rest = other.left ++ other.rest := congrArg Segment.text here
  have lengths : place.left.length = other.left.length := by
    rw [start, start, passed, passed, fronts, List.length_append, List.length_append] at same
    omega
  obtain ⟨lefts, rests⟩ := List.append_inj texts lengths
  cases place
  cases other
  cases fronts
  cases lefts
  cases rests
  cases rears
  rfl

end CodePlace

/-! ### Chosen occurrences -/

/-- A rule, to be applied to the key that stands behind `start` characters of a line. -/
structure Swap where
  start : Nat
  rule : Rule
  deriving DecidableEq, Repr

/-- Where the key of a swap has ended. -/
def Swap.stop (s : Swap) : Nat :=
  s.start + s.rule.key.length

/-- **The swap is chosen**: its key is the longest of those that fit at a place. -/
def Swap.Chosen (rules : List Rule) (keep : List Nat) (segs : List Segment) (s : Swap) : Prop :=
  s.rule ∈ rules ∧ ∃ place : CodePlace segs, place.start = s.start ∧
    place.Fits keep s.rule.key ∧
    ∀ other ∈ rules, place.Fits keep other.key → other.key.length ≤ s.rule.key.length

/-- **Swaps made at once**: the rest of a line from character `pos` on, with every swap made
in it.  All that is not replaced is taken from the line. -/
def splice : Nat → List Char → List Swap → List Char
  | _, rest, [] => rest
  | pos, rest, s :: later =>
    rest.take (s.start - pos) ++ s.rule.replacement ++
      splice s.stop (rest.drop (s.stop - pos)) later

theorem splice_cons {pos : Nat} {swaps : List Swap} (ahead : ∀ s ∈ swaps, pos < s.start)
    (c : Char) (cs : List Char) :
    splice pos (c :: cs) swaps = c :: splice (pos + 1) cs swaps := by
  cases swaps with
  | nil => rfl
  | cons s later =>
      have first := ahead s List.mem_cons_self
      have toStart : s.start - pos = (s.start - (pos + 1)) + 1 := by omega
      have toStop : s.stop - pos = (s.stop - (pos + 1)) + 1 := by
        rw [Swap.stop]
        omega
      rw [splice, splice, toStart, toStop, List.take_succ_cons, List.drop_succ_cons]
      rfl

/-- It only matters which rules there are. -/
theorem Swap.chosen_congr {rules rules' : List Rule} (same : rules.Perm rules') (keep : List Nat)
    (segs : List Segment) (s : Swap) :
    s.Chosen rules keep segs ↔ s.Chosen rules' keep segs := by
  simp only [Swap.Chosen, same.mem_iff]

section Scan

variable {rules : List Rule} {keep : List Nat} {segs : List Segment}

/-- There is one choice at a place. -/
theorem Swap.Chosen.eq_of_start (sorted : Sorted rules) (named : ∀ rule ∈ rules, IsKey rule.key)
    {s t : Swap} (first : s.Chosen rules keep segs) (second : t.Chosen rules keep segs)
    (same : s.start = t.start) : s = t := by
  obtain ⟨known, place, here, fits, longest⟩ := first
  obtain ⟨known', place', here', fits', longest'⟩ := second
  obtain rfl : place = place' := CodePlace.eq_of_start (fits.rest_ne_nil (named _ known))
    (fits'.rest_ne_nil (named _ known')) (here.trans (same.trans here'.symm))
  have lengths : s.rule.key.length = t.rule.key.length :=
    Nat.le_antisymm (longest' _ known fits) (longest _ known' fits')
  have keys : s.rule.key = t.rule.key :=
    (List.prefix_of_prefix_length_le fits.inside fits'.inside lengths.le).eq_of_length lengths
  have rulesSame := sorted.eq_of_key known known' keys
  cases s
  cases t
  cases same
  cases rulesSame
  rfl

/-- Chosen swaps do not overlap. -/
theorem Swap.Chosen.apart (named : ∀ rule ∈ rules, IsKey rule.key) {s t : Swap}
    (first : s.Chosen rules keep segs) (second : t.Chosen rules keep segs)
    (before : s.start < t.start) : s.stop ≤ t.start := by
  obtain ⟨known, place, here, fits, -⟩ := first
  obtain ⟨-, place', here', fits', -⟩ := second
  rw [Swap.stop, ← here, ← here']
  rw [← here, ← here'] at before
  exact fits.apart (named _ known) fits' before

/-- **The rest of a line renders as `out`**: it becomes that when the chosen swaps from
character `pos` on are made. -/
def Renders (rules : List Rule) (keep : List Nat) (segs : List Segment) (pos : Nat)
    (rest out : List Char) : Prop :=
  ∃ swaps : List Swap, (∀ s, s ∈ swaps ↔ s.Chosen rules keep segs ∧ pos ≤ s.start) ∧
    swaps.Pairwise (fun s t => s.stop ≤ t.start) ∧ out = splice pos rest swaps

/-- A character at which no swap is chosen is copied. -/
theorem Renders.copy {pos : Nat} {rest out : List Char}
    (later : Renders rules keep segs (pos + 1) rest out)
    (none : ∀ s : Swap, s.Chosen rules keep segs → s.start ≠ pos) (c : Char) :
    Renders rules keep segs pos (c :: rest) (c :: out) := by
  obtain ⟨swaps, chosen, ordered, rfl⟩ := later
  refine ⟨swaps, fun s => ?_, ordered, ?_⟩
  · rw [chosen]
    refine and_congr_right fun isChosen => ?_
    have other := none s isChosen
    omega
  · exact (splice_cons (fun s member => ((chosen s).mp member).2) c rest).symm

/-- Characters at which no swap is chosen are copied. -/
theorem Renders.copies {pos : Nat} {text rest out : List Char}
    (later : Renders rules keep segs (pos + text.length) rest out)
    (none : ∀ s : Swap, s.Chosen rules keep segs → s.start < pos ∨ pos + text.length ≤ s.start) :
    Renders rules keep segs pos (text ++ rest) (text ++ out) := by
  induction text generalizing pos with
  | nil => exact later
  | cons c cs ih =>
      rw [List.length_cons] at later none
      refine Renders.copy (ih ?_ fun s chosen => ?_) (fun s chosen => ?_) c
      · rw [Nat.add_assoc, Nat.add_comm 1]
        exact later
      · have outside := none s chosen
        omega
      · have outside := none s chosen
        omega

/-- A chosen swap is made, and the line goes on behind its key. -/
theorem Renders.swap (sorted : Sorted rules) (named : ∀ rule ∈ rules, IsKey rule.key)
    {s : Swap} {rest out : List Char} (chosen : s.Chosen rules keep segs)
    (later : Renders rules keep segs s.stop rest out) :
    Renders rules keep segs s.start (s.rule.key ++ rest) (s.rule.replacement ++ out) := by
  obtain ⟨swaps, others, ordered, rfl⟩ := later
  refine ⟨s :: swaps, fun t => ?_, ?_, ?_⟩
  · rw [List.mem_cons, others]
    constructor
    · rintro (rfl | ⟨isChosen, behind⟩)
      · exact ⟨chosen, Nat.le_refl _⟩
      · exact ⟨isChosen, (Nat.le_add_right _ _).trans behind⟩
    · rintro ⟨isChosen, behind⟩
      rcases Nat.eq_or_lt_of_le behind with same | before
      · exact Or.inl (isChosen.eq_of_start sorted named chosen same.symm)
      · exact Or.inr ⟨isChosen, chosen.apart named isChosen before⟩
  · exact List.pairwise_cons.mpr ⟨fun t member => ((others t).mp member).2, ordered⟩
  · rw [splice, Nat.sub_self, List.take_zero, List.nil_append, Swap.stop, Nat.add_sub_cancel_left,
      List.drop_left]

/-! ### The scan -/

/-- The first character behind a place, in the segment or after it. -/
theorem head?_orElse (cs rear : List Char) : (cs.head? <|> rear.head?) = (cs ++ rear).head? := by
  cases cs <;> rfl

theorem getLast?_orElse (cs front : List Char) :
    (cs.getLast? <|> front.getLast?) = (front ++ cs).getLast? := by
  rw [List.getLast?_append]
  cases cs.getLast? <;> rfl

variable {r : Renaming}

/-- **The rule that counts is the one to choose.** -/
theorem chosen_of_ruleAt? (sorted : Sorted r.rules) (place : CodePlace segs)
    (unkept : byteWidth place.passed ∉ keep) (begins : startsAfter place.passed.getLast? = true)
    {rule : Rule}
    (found : r.ruleAt? (Segment.textOf place.rear).head? place.rest = some rule) :
    Swap.Chosen r.rules keep segs ⟨place.start, rule⟩ := by
  obtain ⟨known, rest, text, ends⟩ := ruleAt?_eq_some found
  refine ⟨known, place, rfl, ⟨⟨rest, text.symm⟩, unkept, begins, ?_⟩, fun other member fits => ?_⟩
  · rw [head?_orElse] at ends
    rw [text, List.drop_left]
    exact ends
  · refine ruleAt?_longest sorted found member fits.inside ?_
    rw [head?_orElse]
    exact fits.ends

/-- Where no rule counts, no key fits. -/
theorem not_fits_of_ruleAt? (place : CodePlace segs)
    (none : r.ruleAt? (Segment.textOf place.rear).head? place.rest = none) {rule : Rule}
    (known : rule ∈ r.rules) : ¬ place.Fits keep rule.key := by
  intro fits
  have fails := List.find?_eq_none.mp none rule known
  refine fails ?_
  rw [Bool.and_eq_true, List.isPrefixOf_iff_prefix, head?_orElse]
  exact ⟨fits.inside, fits.ends⟩

/-- Where a key fits, a swap is chosen. -/
theorem exists_chosen (sorted : Sorted r.rules) {place : CodePlace segs} {rule : Rule}
    (known : rule ∈ r.rules) (fits : place.Fits keep rule.key) :
    ∃ s : Swap, s.Chosen r.rules keep segs ∧ s.start = place.start := by
  cases found : r.ruleAt? (Segment.textOf place.rear).head? place.rest with
  | none => exact absurd fits (not_fits_of_ruleAt? place found known)
  | some longest =>
      exact ⟨⟨place.start, longest⟩, chosen_of_ruleAt? sorted place fits.unkept fits.begins found,
        rfl⟩

/-- Where no key fits, no swap is chosen. -/
theorem start_ne_of_not_fits (named : ∀ rule ∈ rules, IsKey rule.key) (place : CodePlace segs)
    (some : place.rest ≠ []) (none : ∀ rule ∈ rules, ¬ place.Fits keep rule.key) {s : Swap}
    (chosen : s.Chosen rules keep segs) : s.start ≠ place.start := by
  intro same
  obtain ⟨known, place', here, fits, -⟩ := chosen
  obtain rfl : place' = place :=
    CodePlace.eq_of_start (fits.rest_ne_nil (named _ known)) some (here.trans same)
  exact none _ known fits

/-- **The scan of a segment renders it**, whatever the line after it renders as. -/
theorem code_renders (sorted : Sorted r.rules) (named : ∀ rule ∈ r.rules, IsKey rule.key)
    {front rear : List Segment} {tail : List Char} (cs : List Char) :
    ∀ (left : List Char) (skip : Nat), segs = front ++ ⟨.code, left ++ cs⟩ :: rear →
      skip ≤ cs.length →
      Renders r.rules keep segs (Segment.textOf front ++ left ++ cs).length
        (Segment.textOf rear) tail →
      Renders r.rules keep segs ((Segment.textOf front ++ left).length + skip)
        (cs.drop skip ++ Segment.textOf rear)
        (r.code keep (Segment.textOf rear).head? skip (byteWidth (Segment.textOf front ++ left))
          (Segment.textOf front ++ left).getLast? cs ++ tail) := by
  induction cs with
  | nil =>
      intro left skip whole enough later
      obtain rfl : skip = 0 := Nat.le_zero.mp enough
      rw [List.append_nil] at later
      exact later
  | cons c cs ih =>
      intro left skip whole enough later
      -- what the scan has passed after this character
      have onward : left ++ c :: cs = left ++ [c] ++ cs := by simp
      have width : byteWidth (Segment.textOf front ++ left) + c.utf8Size =
          byteWidth (Segment.textOf front ++ (left ++ [c])) := by
        rw [← List.append_assoc, byteWidth_append (Segment.textOf front ++ left)]
        rfl
      have last : some c = (Segment.textOf front ++ (left ++ [c])).getLast? := by
        rw [← List.append_assoc, List.getLast?_concat]
      have length : (Segment.textOf front ++ (left ++ [c])).length =
          (Segment.textOf front ++ left).length + 1 := by
        simp only [List.length_append, List.length_singleton]
        omega
      have next : ∀ skip, skip ≤ cs.length → Renders r.rules keep segs
          ((Segment.textOf front ++ left).length + (skip + 1)) (cs.drop skip ++ Segment.textOf rear)
          (r.code keep (Segment.textOf rear).head? skip
            (byteWidth (Segment.textOf front ++ left) + c.utf8Size) (some c) cs ++ tail) := by
        intro skip enough
        have stepped := ih (left ++ [c]) skip (by rw [← onward]; exact whole) enough
          (by rw [List.append_assoc, ← onward, ← List.append_assoc]; exact later)
        rw [length, ← width, ← last, Nat.add_assoc, Nat.add_comm 1] at stepped
        exact stepped
      cases skip with
      | succ skip => exact next skip (Nat.le_of_succ_le_succ enough)
      | zero =>
          let place : CodePlace segs := ⟨front, left, c :: cs, rear, whole⟩
          have copied : (∀ rule ∈ r.rules, ¬ place.Fits keep rule.key) →
              Renders r.rules keep segs place.start (c :: (cs ++ Segment.textOf rear))
                (c :: (r.code keep (Segment.textOf rear).head? 0
                  (byteWidth place.passed + c.utf8Size) (some c) cs ++ tail)) := fun none =>
            (next 0 (Nat.zero_le _)).copy (fun s chosen =>
              start_ne_of_not_fits named place (List.cons_ne_nil c cs) none chosen) c
          rw [code]
          split
          next looked =>
            rw [Bool.and_eq_true, Bool.and_eq_true] at looked
            have unkept : byteWidth place.passed ∉ keep := by
              have notKept := looked.2
              rw [Bool.not_eq_true', List.contains_eq_mem, decide_eq_false_iff_not] at notKept
              exact notKept
            split
            next rule found =>
              have chosen := chosen_of_ruleAt? sorted place unkept looked.1.1 found
              obtain ⟨known, rest, spelled, -⟩ := ruleAt?_eq_some found
              obtain ⟨d, ds, key, -⟩ := (named rule known).start
              have size : rule.key.length = ds.length + 1 := congrArg List.length key
              have text : cs = ds ++ rest := by
                rw [key, List.cons_append] at spelled
                exact (List.cons.inj spelled).2
              have behind := next ds.length (by rw [text, List.length_append]; omega)
              have dropped : cs.drop ds.length = rest := by rw [text, List.drop_left]
              rw [dropped, ← size] at behind
              rw [List.drop_zero, spelled, List.append_assoc, List.append_assoc, size,
                Nat.add_sub_cancel]
              exact Renders.swap sorted named chosen behind
            next none =>
              exact copied fun rule known => not_fits_of_ruleAt? place none known
          next notLooked =>
            refine copied fun rule known fits => notLooked ?_
            exact fits.looked (named rule known) rfl

/-- A literal has no place in it. -/
theorem Swap.Chosen.outside_literal (named : ∀ rule ∈ rules, IsKey rule.key) {s : Swap}
    (chosen : s.Chosen rules keep segs) {front rear : List Segment} {text : List Char}
    (split : segs = front ++ ⟨.literal, text⟩ :: rear) :
    s.start < (Segment.textOf front).length ∨
      (Segment.textOf front).length + text.length ≤ s.start := by
  by_contra inside
  rw [not_or, Nat.not_lt, Nat.not_le] at inside
  obtain ⟨known, place, here, fits, -⟩ := chosen
  rw [← here] at inside
  obtain ⟨-, literal, -⟩ := place.segment_eq (fits.rest_ne_nil (named _ known)) split inside.1
    (by rw [List.length_append]; exact inside.2)
  cases congrArg Segment.kind literal

/-- **The scan of a line renders it.** -/
theorem segments_renders (sorted : Sorted r.rules) (named : ∀ rule ∈ r.rules, IsKey rule.key)
    (ahead : List Segment) : ∀ front, segs = front ++ ahead →
      Renders r.rules keep segs (Segment.textOf front).length (Segment.textOf ahead)
        (r.segments keep (byteWidth (Segment.textOf front)) (Segment.textOf front).getLast?
          ahead) := by
  induction ahead with
  | nil =>
      intro front whole
      refine ⟨[], fun s => ⟨fun member => (by cases member), ?_⟩, List.Pairwise.nil, rfl⟩
      rintro ⟨⟨known, place, here, fits, -⟩, behind⟩
      -- a key that fits has a character of the line behind its place
      have total := congrArg List.length place.textOf_eq
      have positive := List.length_pos_iff.mpr (fits.rest_ne_nil (named _ known))
      rw [List.append_nil] at whole
      rw [List.length_append, List.length_append] at total
      rw [← whole, ← here, CodePlace.start] at behind
      omega
  | cons s rest ih =>
      intro front whole
      have passed : Segment.textOf (front ++ [s]) = Segment.textOf front ++ s.text := by
        simp [Segment.textOf]
      have later := ih (front ++ [s]) (by rw [whole, List.append_assoc]; rfl)
      rw [passed, byteWidth_append, ← getLast?_orElse] at later
      have ahead : Segment.textOf (s :: rest) = s.text ++ Segment.textOf rest := List.flatMap_cons
      rw [segments, ahead]
      obtain ⟨kind, text⟩ := s
      cases kind with
      | literal =>
          rw [List.length_append] at later
          exact later.copies fun t chosen => chosen.outside_literal named whole
      | code =>
          have scanned := code_renders sorted named text [] 0 whole
            (Nat.zero_le _) (by rw [List.append_nil]; exact later)
          rw [List.append_nil] at scanned
          exact scanned

end Scan

/-! ### Renamed lines -/

/-- **A renamed line is the line with the chosen occurrences replaced at once.**  Take any
pairs with distinct keys, any line in any segments and any bytes to keep.

* The renamed line is made by swaps, and they are those that are chosen: at each place of
  the code where some key fits, the rule with the longest key that does.
* Wherever a key fits, a swap is made.
* Keys that fit at different places never overlap, and so the swaps do not.
* In another order, the pairs rename the line to the same. -/
theorem line_replaces_chosen {pairs : List (String × String)}
    (distinct : (pairs.map Prod.fst).Nodup) (named : ∀ pair ∈ pairs, IsKey pair.1.toList)
    (keep : List Nat) (lexed : LexedLine) :
    (∃ swaps : List Swap,
      (∀ s, s ∈ swaps ↔ s.Chosen (pairs.map Rule.ofPair) keep lexed.segments) ∧
      (∀ place : CodePlace lexed.segments, ∀ pair ∈ pairs, place.Fits keep pair.1.toList →
        ∃ s ∈ swaps, s.start = place.start) ∧
      swaps.Pairwise (fun s t => s.stop ≤ t.start) ∧
      (ofPairs pairs).line keep lexed = splice 0 lexed.text swaps) ∧
    (∀ place later : CodePlace lexed.segments, ∀ pair ∈ pairs, ∀ other ∈ pairs,
      place.Fits keep pair.1.toList → later.Fits keep other.1.toList →
      place.start < later.start → place.start + pair.1.toList.length ≤ later.start) ∧
    ∀ reordered : List (String × String), reordered.Perm pairs →
      (ofPairs reordered).line keep lexed = (ofPairs pairs).line keep lexed := by
  have nonempty : ∀ pair ∈ pairs, pair.1 ≠ "" := by
    intro pair member empty
    exact (named pair member).ne_nil (by rw [empty]; rfl)
  have sorted := sorted_ofPairs pairs
  have rules := perm_rules_ofPairs distinct nonempty
  have keys : ∀ rule ∈ (ofPairs pairs).rules, IsKey rule.key := by
    intro rule member
    obtain ⟨pair, given, rfl⟩ := List.mem_map.mp (rules.mem_iff.mp member)
    exact named pair given
  refine ⟨?_, ?_, fun reordered same => ?_⟩
  · have rendered : Renders (ofPairs pairs).rules keep lexed.segments 0 lexed.text
        ((ofPairs pairs).line keep lexed) := segments_renders sorted keys lexed.segments [] rfl
    obtain ⟨swaps, chosen, ordered, made⟩ := rendered
    simp only [Nat.zero_le, and_true] at chosen
    refine ⟨swaps, fun s => ?_, fun place pair given fits => ?_, ordered, made⟩
    · rw [chosen, Swap.chosen_congr rules]
    · have known : Rule.ofPair pair ∈ (ofPairs pairs).rules :=
        rules.mem_iff.mpr (List.mem_map_of_mem given)
      obtain ⟨s, isChosen, here⟩ := exists_chosen sorted known fits
      exact ⟨s, (chosen s).mpr isChosen, here⟩
  · intro place later pair given other _ fits fits' before
    exact fits.apart (named pair given) fits' before
  · rw [ofPairs_perm same distinct nonempty]

/-- A key that continues another one, in no particular order. -/
def dottedPairs : List (String × String) :=
  [("a", "m__a"), ("a.b", "m__b"), ("é", "m__e")]

/-- A line that has the keys in a string, inside longer names and as attributes, too. -/
def dottedLine : LexedLine where
  tokens := []
  segments :=
    [⟨.code, "a = a.b(é.a, ab) + a.bc + ".toList⟩, ⟨.literal, "'a'".toList⟩, ⟨.code, " + a".toList⟩]
  startsInString := false

/-- The first name is kept, and of the others four are replaced. -/
theorem line_replaces_chosen_dottedLine :
    (dottedPairs.map Prod.fst).Nodup ∧ (∀ pair ∈ dottedPairs, IsKey pair.1.toList) ∧
    ∃ swaps : List Swap,
      (∀ s, s ∈ swaps ↔ s.Chosen (dottedPairs.map Rule.ofPair) [0] dottedLine.segments) ∧
      splice 0 dottedLine.text swaps = "a = m__b(m__e.a, ab) + m__a.bc + 'a' + m__a".toList ∧
      (ofPairs dottedPairs.reverse).line [0] dottedLine = splice 0 dottedLine.text swaps := by
  have distinct : (dottedPairs.map Prod.fst).Nodup := by decide
  have named : ∀ pair ∈ dottedPairs, IsKey pair.1.toList := by
    intro pair member
    simp only [dottedPairs, List.mem_cons, List.not_mem_nil, or_false] at member
    rcases member with rfl | rfl | rfl
    · exact ⟨⟨_, _, rfl, by decide⟩, List.forall_iff_forall_mem.mp (by decide)⟩
    · exact ⟨⟨_, _, rfl, by decide⟩, List.forall_iff_forall_mem.mp (by decide)⟩
    · exact ⟨⟨_, _, rfl, by decide⟩, List.forall_iff_forall_mem.mp (by decide)⟩
  obtain ⟨⟨swaps, chosen, -, -, made⟩, -, reordered⟩ :=
    line_replaces_chosen distinct named [0] dottedLine
  have renamed : (ofPairs dottedPairs).line [0] dottedLine =
      "a = m__b(m__e.a, ab) + m__a.bc + 'a' + m__a".toList := by decide +kernel
  refine ⟨distinct, named, swaps, chosen, made.symm.trans renamed, ?_⟩
  rw [reordered _ (List.reverse_perm _), made]

end Renaming

end Amalgam
