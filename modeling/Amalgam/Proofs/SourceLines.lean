import Amalgam.Text.Lines
import Mathlib.Data.List.Basic

/-!
# Lines and the text they come from

Cutting a text at a character and joining the pieces with that character are the
library's `List.splitOn` and `List.intercalate`, so the pieces of a text give it back.
The lines of a source leave out one piece, the empty one behind a final newline; put
together they are the source without that newline.

## Main statements

* `splitAt_eq_splitOn`, `joinWith_eq_intercalate`
* `joinWith_sourceLines` — what the lines of a source are together
* `sourceLines_append_newline` — the first of them
-/

namespace Amalgam

/-! ### Cutting and joining -/

theorem splitAt_cons (sep c : Char) (t : List Char) :
    splitAt sep (c :: t) =
      if c = sep then [] :: splitAt sep t else prependFirst c (splitAt sep t) := rfl

theorem joinWith_cons {sep : Char} {piece : List Char} {pieces : List (List Char)}
    (more : pieces ≠ []) : joinWith sep (piece :: pieces) = piece ++ sep :: joinWith sep pieces := by
  cases pieces with
  | nil => exact absurd rfl more
  | cons next later => rfl

/-- Cutting a text is the library's function. -/
theorem splitAt_eq_splitOn (sep : Char) (t : List Char) : splitAt sep t = t.splitOn sep := by
  induction t with
  | nil => rfl
  | cons c t ih =>
      rw [splitAt_cons, List.splitOn_cons_eq_if_modifyHead, ← ih]
      by_cases same : c = sep
      · simp [same]
      · have some : splitAt sep t ≠ [] := ih ▸ List.splitOn_ne_nil sep t
        cases pieces : splitAt sep t with
        | nil => exact absurd pieces some
        | cons piece later => simp [same, prependFirst]

/-- So is joining pieces. -/
theorem joinWith_eq_intercalate (sep : Char) (pieces : List (List Char)) :
    joinWith sep pieces = [sep].intercalate pieces := by
  fun_induction joinWith sep pieces with
  | case1 => simp
  | case2 piece => simp
  | case3 piece pieces more ih =>
      cases pieces with
      | nil => exact absurd rfl more
      | cons next later => simp [ih, List.intercalate_cons_cons]

theorem joinWith_splitAt (sep : Char) (t : List Char) : joinWith sep (splitAt sep t) = t := by
  rw [joinWith_eq_intercalate, splitAt_eq_splitOn, List.intercalate_splitOn]

/-- The pieces do not have the separator. -/
theorem notMem_of_mem_splitAt {sep : Char} {t : List Char} :
    ∀ piece ∈ splitAt sep t, sep ∉ piece := by
  induction t with
  | nil => simp [splitAt]
  | cons c t ih =>
      rw [splitAt_cons]
      split
      · exact List.forall_mem_cons.mpr ⟨List.not_mem_nil, ih⟩
      next other =>
        cases pieces : splitAt sep t with
        | nil => simpa [prependFirst] using Ne.symm other
        | cons first rest =>
            rw [pieces] at ih
            obtain ⟨head, tail⟩ := List.forall_mem_cons.mp ih
            refine List.forall_mem_cons.mpr ⟨?_, tail⟩
            rw [List.mem_cons, not_or]
            exact ⟨Ne.symm other, head⟩

/-! ### The last piece -/

/-- Behind a separator at the very end there is an empty piece. -/
theorem splitAt_concat_self (sep : Char) (t : List Char) :
    splitAt sep (t ++ [sep]) = splitAt sep t ++ [[]] := by
  rw [splitAt_eq_splitOn, splitAt_eq_splitOn, List.splitOn_append_cons_self, List.splitOn_nil]

/-- A text that ends in another character has it at the end of its last piece. -/
theorem splitAt_concat_of_ne {sep c : Char} (other : c ≠ sep) (t : List Char) :
    ∃ pieces last, splitAt sep (t ++ [c]) = pieces ++ [last ++ [c]] := by
  induction t with
  | nil => exact ⟨[], [], by simp [splitAt, prependFirst, other]⟩
  | cons d t ih =>
      obtain ⟨pieces, last, split⟩ := ih
      rw [List.cons_append, splitAt_cons, split]
      split
      · exact ⟨[] :: pieces, last, rfl⟩
      · cases pieces with
        | nil => exact ⟨[], d :: last, rfl⟩
        | cons piece later => exact ⟨(d :: piece) :: later, last, rfl⟩

/-! ### The lines of a source -/

/-- A text without a newline at its end. -/
def dropFinalNewline (t : List Char) : List Char :=
  if t.getLast? = some '\n' then t.dropLast else t

/-- **The lines of a source, put together**, are the source without a newline at its end. -/
theorem joinWith_sourceLines (source : List Char) :
    joinWith '\n' (sourceLines source) = dropFinalNewline source := by
  rcases source.eq_nil_or_concat with rfl | ⟨t, c, rfl⟩
  · rfl
  · rw [List.concat_eq_append, sourceLines, dropEmptyLast, dropFinalNewline]
    by_cases final : c = '\n'
    · subst final
      rw [splitAt_concat_self]
      simp [joinWith_splitAt]
    · obtain ⟨pieces, last, split⟩ := splitAt_concat_of_ne final t
      have whole := joinWith_splitAt '\n' (t ++ [c])
      rw [split] at whole ⊢
      simp [final, whole]

/-- **The first line of a source** ends at the first newline. -/
theorem sourceLines_append_newline {line : List Char} (single : '\n' ∉ line) (rest : List Char) :
    sourceLines (line ++ '\n' :: rest) = line :: sourceLines rest := by
  have pieces : splitAt '\n' (line ++ '\n' :: rest) = line :: splitAt '\n' rest := by
    rw [splitAt_eq_splitOn, splitAt_eq_splitOn, List.splitOn_append_cons_self_of_not_mem single]
  have some : splitAt '\n' rest ≠ [] := splitAt_eq_splitOn '\n' rest ▸ List.splitOn_ne_nil _ rest
  rw [sourceLines, sourceLines, pieces, dropEmptyLast, dropEmptyLast,
    List.getLast?_cons_of_ne_nil some]
  split
  · rw [List.dropLast_cons_of_ne_nil some]
  · rfl

end Amalgam
