import Amalgam.Payload
import Mathlib.Data.List.Infix

/-!
# A payload is read back

The payload of an executable is what stands behind the first marker in it.  The launcher
in front is arbitrary bytes, so the first marker could begin in the launcher and end in
the marker that was appended: launchers end in zeros, and the marker starts with a run of
them.

It cannot, because the marker has no **border**: no shorter beginning of it is also an
end of it.  Its last byte, the colon of the tag, stands nowhere else in it
(`unbordered_concat`).  Two occurrences of such a word never overlap, so an occurrence that
begins inside the launcher lies inside it (`Unbordered.infix_of_occurs`).

## Main statements

* `Unbordered`, `unbordered_payloadMarker`
* `extractPayload?_eq_dropInfix?` — reading a payload is the library's search for a word
* `payload_read_back_iff`
-/

namespace Amalgam

/-! ### Words without borders -/

/-- **A word without a border**: of its beginnings, only the empty one and the whole word
are also ends of it. -/
def Unbordered {α : Type} (w : List α) : Prop :=
  ∀ u, u <+: w → u <:+ w → u = [] ∨ u = w

/-- A last letter that stands nowhere else leaves no border. -/
theorem unbordered_concat {α : Type} {w : List α} {a : α} (once : a ∉ w) :
    Unbordered (w ++ [a]) := by
  intro u starts ends
  rcases List.prefix_concat_iff.mp starts with whole | inside
  · exact Or.inr whole
  · rcases List.suffix_concat_iff.mp ends with empty | ⟨front, rfl, -⟩
    · exact Or.inl empty
    · have last : a ∈ front ++ [a] := by simp
      exact absurd (inside.subset last) once

section Occurrences

variable {α : Type} {w : List α}

/-- **Occurrences do not overlap.**  In front of an occurrence of a word without a border,
another one that begins before it also ends before it. -/
theorem Unbordered.infix_of_occurs (unbordered : Unbordered w) {front rest front' rest' : List α}
    (twice : front ++ w ++ rest = front' ++ w ++ rest') (earlier : front'.length < front.length) :
    w <:+: front := by
  rw [List.append_assoc, List.append_assoc] at twice
  obtain ⟨gap, between, behind⟩ : ∃ gap, front = front' ++ gap ∧
      gap ++ (w ++ rest) = w ++ rest' := by
    rcases List.append_eq_append_iff.mp twice with ⟨gap, longer, -⟩ | ⟨gap, between, behind⟩
    · rw [longer, List.length_append] at earlier
      omega
    · exact ⟨gap, between, behind.symm⟩
  rcases List.append_eq_append_iff.mp behind with ⟨overlap, whole, after⟩ | ⟨more, whole, -⟩
  · -- what the two have in common begins the second and ends the first
    have shorter : overlap.length ≤ w.length := by
      rw [whole, List.length_append]
      omega
    have leads : overlap <+: w ++ rest := ⟨rest', after.symm⟩
    have starts : overlap <+: w :=
      List.prefix_of_prefix_length_le leads (List.prefix_append w rest) shorter
    have ends : overlap <:+ w := ⟨gap, whole.symm⟩
    rcases unbordered overlap starts ends with none | all
    · rw [none, List.append_nil] at whole
      rw [between, ← whole]
      exact (List.suffix_append front' w).isInfix
    · have empty : gap.length = 0 := by
        have lengths := congrArg List.length whole
        rw [List.length_append, all] at lengths
        omega
      rw [between, List.length_append, empty] at earlier
      omega
  · rw [between, whole]
    exact ⟨front', more, by simp⟩

end Occurrences

/-- The colon of the tag stands at the end of the marker only. -/
theorem unbordered_payloadMarker : Unbordered payloadMarker := by
  have last : payloadMarker = payloadMarker.dropLast ++ [0x3a] := by decide
  rw [last]
  exact unbordered_concat (by decide)

/-! ### Reading a payload -/

/-- A beginning is dropped if it is there. -/
theorem dropPrefix?_of_isPrefixOf {w data : Bytes} :
    data.dropPrefix? w = if w.isPrefixOf data then some (data.drop w.length) else none := by
  split
  next starts =>
    obtain ⟨rest, rfl⟩ := List.isPrefixOf_iff_prefix.mp starts
    rw [List.drop_left]
    exact List.dropPrefix?_append_of_beq rest (beq_self_eq_true w)
  next other =>
    refine Option.eq_none_iff_forall_ne_some.mpr fun rest found => other ?_
    obtain ⟨front, rfl, same⟩ := List.dropPrefix?_eq_some_iff.mp found
    rw [eq_of_beq same]
    exact List.isPrefixOf_iff_prefix.mpr (List.prefix_append w rest)

/-- **Reading a payload is the library's search for a word.** -/
theorem extractPayload?_eq_dropInfix? (data : Bytes) :
    extractPayload? data = (data.dropInfix? payloadMarker).map Prod.snd := by
  -- the search keeps what it has passed, which the payload does not depend on
  have search : ∀ passed, (List.dropInfix?.go payloadMarker data passed).map Prod.snd =
      extractPayload? data := by
    induction data with
    | nil =>
        intro passed
        rfl
    | cons b bs ih =>
        intro passed
        rw [List.dropInfix?.go, dropPrefix?_of_isPrefixOf, extractPayload?]
        by_cases here : payloadMarker.isPrefixOf (b :: bs) = true
        · simp only [here, if_true, Option.map_some]
        · simp only [here]
          exact ih (b :: passed)
  exact (search []).symm

/-- No marker begins before the one behind the launcher, if there is none in the
launcher. -/
theorem not_infix_launcher_iff {launcher : Bytes} (payload : Bytes) :
    ¬ payloadMarker <:+: launcher ↔
      ∀ front rest, launcher ++ payloadMarker ++ payload = front ++ payloadMarker ++ rest →
        launcher.length ≤ front.length := by
  constructor
  · intro absent front rest twice
    by_contra earlier
    exact absent (unbordered_payloadMarker.infix_of_occurs twice (Nat.lt_of_not_le earlier))
  · rintro first ⟨front, rest, rfl⟩
    have earlier := first front (rest ++ payloadMarker ++ payload) (by simp)
    have marked : 0 < payloadMarker.length := by decide
    rw [List.length_append, List.length_append] at earlier
    omega

/-- **A payload is what stands behind a launcher without a marker.** -/
theorem extractPayload?_eq_some_iff {data payload : Bytes} :
    extractPayload? data = some payload ↔
      ∃ launcher, data = launcher ++ payloadMarker ++ payload ∧
        ¬ payloadMarker <:+: launcher := by
  rw [extractPayload?_eq_dropInfix?, Option.map_eq_some_iff]
  constructor
  · rintro ⟨⟨launcher, payload⟩, found, rfl⟩
    obtain ⟨⟨word, whole, same⟩, first⟩ := List.dropInfix?_eq_some_iff.mp found
    rw [eq_of_beq same] at whole
    refine ⟨launcher, whole, (not_infix_launcher_iff payload).mpr fun front rest occurs => ?_⟩
    exact first front payloadMarker rest (whole.trans occurs) (beq_self_eq_true _)
  · rintro ⟨launcher, rfl, absent⟩
    refine ⟨(launcher, payload), List.dropInfix?_eq_some_iff.mpr ⟨?_, ?_⟩, rfl⟩
    · exact ⟨payloadMarker, rfl, beq_self_eq_true _⟩
    · intro front word rest occurs same
      rw [eq_of_beq same] at occurs
      exact (not_infix_launcher_iff payload).mp absent front rest occurs

/-- A launcher has no marker if the marker behind it is the only one up to its end. -/
theorem not_infix_launcher_iff_only_end {launcher : Bytes} :
    ¬ payloadMarker <:+: launcher ↔
      ∀ front rest, launcher ++ payloadMarker = front ++ payloadMarker ++ rest →
        front = launcher ∧ rest = [] := by
  constructor
  · intro absent front rest occurs
    have behind : launcher.length ≤ front.length :=
      (not_infix_launcher_iff []).mp absent front rest (by rw [List.append_nil, occurs])
    have lengths := congrArg List.length occurs
    simp only [List.length_append] at lengths
    have none : rest = [] := List.length_eq_zero_iff.mp (by omega)
    rw [none, List.append_nil] at occurs
    exact ⟨(List.append_cancel_right occurs).symm, none⟩
  · rintro only ⟨front, rest, rfl⟩
    have nothing := (only front (rest ++ payloadMarker) (by simp)).2
    rw [List.append_eq_nil_iff] at nothing
    exact absurd nothing.2 (by decide)

/-- **A payload is read back if and only if its launcher has no marker.**  It does not
matter what the launcher ends with, nor which markers the payload holds.  And what is read
from a file is what stands behind a marker, before whose end there is no other. -/
theorem payload_read_back_iff :
    (∀ launcher payload : Bytes,
      extractPayload? (launcher ++ payloadMarker ++ payload) = some payload ↔
        ¬ payloadMarker <:+: launcher) ∧
    ∀ data payload : Bytes, extractPayload? data = some payload ↔
      ∃ launcher, data = launcher ++ payloadMarker ++ payload ∧
        ∀ front rest, launcher ++ payloadMarker = front ++ payloadMarker ++ rest →
          front = launcher ∧ rest = [] := by
  constructor
  · intro launcher payload
    rw [extractPayload?_eq_some_iff]
    constructor
    · rintro ⟨launcher', same, absent⟩
      rw [List.append_assoc, List.append_assoc] at same
      rw [List.append_cancel_right same]
      exact absent
    · intro absent
      exact ⟨launcher, rfl, absent⟩
  · intro data payload
    simp only [extractPayload?_eq_some_iff, not_infix_launcher_iff_only_end]

end Amalgam
