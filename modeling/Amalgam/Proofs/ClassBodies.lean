import Amalgam.ClassBlock
import Mathlib.Data.List.Basic

/-!
# Class bodies and the lines before them

Whether a line stands directly in a class body is read off a stack of open blocks, which is
popped when a line is indented less and whose top learns the indentation of its body from
the first line inside.  Here the same is said of the lines alone.  Leave out the lines that
are empty or comments and number the others: a line that opens a class **encloses** a later
one if all lines behind it, up to that one, are indented more.  A line stands directly in the
body of the innermost enclosing class if it is indented like the line behind the one that
opens the class.

The stack holds the lines that enclose the next one so far, innermost first, each with the
indentation of the line behind it (`ClassBlock.Tracks`); a line keeps this so, whatever it
closes and opens (`ClassBlock.Tracks.advance`).

## Main statements

* `ClassBlock.encloses_concat_iff` — which open blocks enclose one more line
* `ClassBlock.Tracks.settle` — what popping leaves, and the answer
* `ClassBlock.Tracks.advance`, `ClassBlock.Tracks.run` — one line, all lines
* `inBody_iff_enclosed` — the answer for a line, from the lines before it
-/

namespace Amalgam

namespace ClassBlock

/-! ### Lines that count -/

/-- What counts of a line: how far it is indented, and whether it opens a class. -/
structure Head where
  indent : Nat
  opens : Bool
  deriving DecidableEq, Repr

/-- What counts of a line that is entered, unless it is empty or a comment. -/
def headOf? (entered : List Char × Bool) : Option Head :=
  if isIdleLine entered.1 then none else some ⟨indentOf entered.1, entered.2⟩

/-- The blocks that are open behind lines, of each of which is said whether it opens a
class. -/
def after (entered : List (List Char × Bool)) : List ClassBlock :=
  entered.foldl (fun blocks line => (enter blocks line.1 line.2).1) []

/-- The line numbered `k` opens a class, and all lines behind it up to the one numbered `n` are
indented more. -/
def Encloses (lines : List Head) (k n : Nat) : Prop :=
  k < n ∧ ∃ first ∈ lines[k]?, first.opens = true ∧
    ∀ j, k < j → j ≤ n → ∀ line ∈ lines[j]?, first.indent < line.indent

/-- **The line numbered `n` stands directly in a class body**: it is enclosed, and indented like
the line behind the innermost enclosing one. -/
def InBody (lines : List Head) (n : Nat) : Prop :=
  ∃ k, Encloses lines k n ∧ (∀ other, Encloses lines other n → other ≤ k) ∧
    lines[n]?.map Head.indent = lines[k + 1]?.map Head.indent

/-! ### One line -/

/-- Advances to a line that counts. -/
def advance (blocks : List ClassBlock) (line : Head) : List ClassBlock × Bool :=
  (if line.opens then { indent := line.indent } :: (settle line.indent blocks).1
    else (settle line.indent blocks).1, (settle line.indent blocks).2)

theorem enter_eq (blocks : List ClassBlock) (entered : List Char × Bool) :
    enter blocks entered.1 entered.2 =
      ((headOf? entered).map (advance blocks)).getD (blocks, false) := by
  unfold enter headOf?
  split <;> rfl

theorem after_eq (entered : List (List Char × Bool)) :
    after entered =
      (entered.filterMap headOf?).foldl (fun blocks line => (advance blocks line).1) [] := by
  unfold after
  generalize [] = blocks
  induction entered generalizing blocks with
  | nil => rfl
  | cons first rest ih =>
      rw [List.foldl_cons, ih, List.filterMap_cons, enter_eq]
      cases headOf? first <;> rfl

/-- The block that the line numbered `k` opens. -/
def blockAt (lines : List Head) (k : Nat) : ClassBlock where
  indent := (lines[k]?.map Head.indent).getD 0
  body := lines[k + 1]?.map Head.indent

variable {lines : List Head} {k : Nat} {ks : List Nat} {blocks : List ClassBlock}

/-- A line encloses the next one if it encloses the end of the lines so far and is indented
less. -/
theorem encloses_concat_iff {line : Head} :
    Encloses (lines ++ [line]) k lines.length ↔
      Encloses lines k lines.length ∧ (blockAt lines k).indent < line.indent := by
  constructor
  · rintro ⟨inside, first, there, opens, deeper⟩
    rw [List.getElem?_append_left inside] at there
    refine ⟨⟨inside, first, there, opens, fun j behind within other stands => ?_⟩, ?_⟩
    · refine deeper j behind within other ?_
      rwa [List.getElem?_append_left (List.getElem?_eq_some_iff.mp stands).1]
    · rw [blockAt, Option.mem_def.mp there]
      exact deeper _ inside (Nat.le_refl _) line List.getElem?_concat_length
  · rintro ⟨⟨inside, first, there, opens, deeper⟩, less⟩
    refine ⟨inside, first, ?_, opens, fun j behind within other stands => ?_⟩
    · rwa [List.getElem?_append_left inside]
    · rcases Nat.lt_or_eq_of_le within with before | rfl
      · rw [List.getElem?_append_left before] at stands
        exact deeper j behind within other stands
      · rw [List.getElem?_concat_length, Option.mem_some_iff] at stands
        rw [blockAt, Option.mem_def.mp there] at less
        exact stands ▸ less

/-- A block is open behind one more line if the line opens it, or is enclosed by the line that
does. -/
theorem encloses_length_concat_iff {line : Head} :
    Encloses (lines ++ [line]) k (lines ++ [line]).length ↔
      k = lines.length ∧ line.opens = true ∨ Encloses (lines ++ [line]) k lines.length := by
  rw [List.length_append, List.length_singleton]
  have past {j : Nat} {other : Head} (stands : other ∈ (lines ++ [line])[j]?) :
      j ≤ lines.length := by
    have inside := (List.getElem?_eq_some_iff.mp stands).1
    rw [List.length_append, List.length_singleton] at inside
    exact Nat.le_of_lt_succ inside
  constructor
  · rintro ⟨inside, first, there, opens, deeper⟩
    rcases Nat.lt_or_eq_of_le (Nat.le_of_lt_succ inside) with before | rfl
    · exact Or.inr ⟨before, first, there, opens, fun j behind within =>
        deeper j behind (Nat.le_succ_of_le within)⟩
    · rw [List.getElem?_concat_length, Option.mem_some_iff] at there
      exact Or.inl ⟨rfl, there ▸ opens⟩
  · rintro (⟨rfl, opens⟩ | ⟨before, first, there, opens, deeper⟩)
    · refine ⟨Nat.lt_succ_self _, line, List.getElem?_concat_length, opens, ?_⟩
      intro j behind _ other stands
      exact absurd (past stands) (Nat.not_le_of_lt behind)
    · exact ⟨Nat.lt_succ_of_lt before, first, there, opens, fun j behind _ other stands =>
        deeper j behind (past stands) other stands⟩

/-- **The open blocks as lines**: `ks` numbers the lines that opened them, innermost first. -/
structure Tracks (lines : List Head) (blocks : List ClassBlock) (ks : List Nat) : Prop where
  sorted : ks.Pairwise (· > ·)
  mem_iff : ∀ k, k ∈ ks ↔ Encloses lines k lines.length
  blocks_eq : blocks = ks.map (blockAt lines)

/-- Blocks further out are indented less. -/
theorem Encloses.indent_lt {outer inner n : Nat} (out : Encloses lines outer n)
    (inside : Encloses lines inner n) (less : outer < inner) :
    (blockAt lines outer).indent < (blockAt lines inner).indent := by
  obtain ⟨-, first, there, -, deeper⟩ := out
  obtain ⟨within, second, there', -, -⟩ := inside
  rw [blockAt, blockAt, Option.mem_def.mp there, Option.mem_def.mp there']
  exact deeper inner less (Nat.le_of_lt within) second there'

/-- What a line closes is at the top of the stack, so that popping takes all of it. -/
theorem dropWhile_eq_filter (sorted : ks.Pairwise (· > ·))
    (enclose : ∀ k ∈ ks, Encloses lines k lines.length) (indent : Nat) :
    ks.dropWhile (fun k => indent ≤ (blockAt lines k).indent) =
      ks.filter fun k => (blockAt lines k).indent < indent := by
  induction ks with
  | nil => rfl
  | cons inner outer ih =>
      obtain ⟨less, sorted⟩ := List.pairwise_cons.mp sorted
      have out := fun k mem => enclose k (List.mem_cons_of_mem _ mem)
      by_cases closes : indent ≤ (blockAt lines inner).indent
      · rw [List.dropWhile_cons_of_pos (by simpa using closes), ih sorted out,
          List.filter_cons_of_neg (by simpa using closes)]
      · rw [List.dropWhile_cons_of_neg (by simpa using closes), eq_comm, List.filter_eq_self]
        have above := Nat.lt_of_not_le closes
        refine List.forall_mem_cons.mpr ⟨decide_eq_true above, fun k mem => decide_eq_true ?_⟩
        exact Nat.lt_trans ((out k mem).indent_lt (enclose _ List.mem_cons_self) (less k mem)) above

/-- A block's body is indented like the next line, unless its indentation is known. -/
theorem blockAt_concat (inside : k < lines.length) (line : Head) :
    blockAt (lines ++ [line]) k =
      { blockAt lines k with body := some ((blockAt lines k).body.getD line.indent) } := by
  unfold blockAt
  rw [List.getElem?_append_left inside]
  rcases Nat.lt_or_eq_of_le (Nat.succ_le_of_lt inside) with more | last
  · rw [List.getElem?_append_left more, List.getElem?_eq_getElem more]
    rfl
  · rw [show k + 1 = lines.length from last, List.getElem?_concat_length, List.getElem?_eq_none (Nat.le_refl _)]
    rfl

theorem blockAt_concat_of_lt (inside : k + 1 < lines.length) (line : Head) :
    blockAt (lines ++ [line]) k = blockAt lines k := by
  rw [blockAt, blockAt, List.getElem?_append_left inside,
    List.getElem?_append_left (Nat.lt_of_succ_lt inside)]

/-- Popping leaves the blocks that enclose the line, and its indentation is compared with that of
the line behind the innermost first line. -/
theorem Tracks.settle (tracks : Tracks lines blocks ks) (line : Head) :
    ∃ left : List Nat, left.Pairwise (· > ·) ∧
      (∀ k, k ∈ left ↔ Encloses (lines ++ [line]) k lines.length) ∧
      (settle line.indent blocks).1 = left.map (blockAt (lines ++ [line])) ∧
      ((settle line.indent blocks).2 = true ↔ InBody (lines ++ [line]) lines.length) := by
  have mem_left (k : Nat) : k ∈ ks.filter (fun k => (blockAt lines k).indent < line.indent) ↔
      Encloses (lines ++ [line]) k lines.length := by
    rw [List.mem_filter, tracks.mem_iff, decide_eq_true_iff, encloses_concat_iff]
  have sorted := tracks.sorted.filter fun k => (blockAt lines k).indent < line.indent
  have popped : blocks.dropWhile (fun block => line.indent ≤ block.indent) =
      (ks.filter fun k => (blockAt lines k).indent < line.indent).map (blockAt lines) := by
    rw [tracks.blocks_eq, List.dropWhile_map,
      ← dropWhile_eq_filter tracks.sorted fun k mem => (tracks.mem_iff k).mp mem]
    rfl
  refine ⟨_, sorted, mem_left, ?_⟩
  unfold ClassBlock.settle
  rw [popped]
  generalize ks.filter (fun k => (blockAt lines k).indent < line.indent) = left at mem_left sorted
  cases left with
  | nil =>
      refine ⟨rfl, iff_of_false Bool.false_ne_true ?_⟩
      rintro ⟨k, encloses, -⟩
      exact List.not_mem_nil ((mem_left k).mpr encloses)
  | cons inner outer =>
      have enclosing := (mem_left inner).mp List.mem_cons_self
      obtain ⟨less, -⟩ := List.pairwise_cons.mp sorted
      have topmost (k : Nat) (encloses : Encloses (lines ++ [line]) k lines.length) :
          k ≤ inner := by
        rcases List.mem_cons.mp ((mem_left k).mpr encloses) with rfl | mem
        · exact Nat.le_refl _
        · exact Nat.le_of_lt (less k mem)
      -- the blocks further out have seen their bodies: the innermost first line stands there
      have kept : outer.map (blockAt (lines ++ [line])) = outer.map (blockAt lines) :=
        List.map_congr_left fun k mem => blockAt_concat_of_lt
          (Nat.lt_of_le_of_lt (Nat.succ_le_of_lt (less k mem)) enclosing.1) line
      have body : (lines ++ [line])[inner + 1]?.map Head.indent =
          some ((blockAt lines inner).body.getD line.indent) :=
        congrArg ClassBlock.body (blockAt_concat enclosing.1 line)
      have next : (lines ++ [line])[lines.length]?.map Head.indent = some line.indent := by
        rw [List.getElem?_concat_length]
        rfl
      refine ⟨?_, beq_iff_eq.trans ⟨fun same => ⟨inner, enclosing, topmost, ?_⟩, ?_⟩⟩
      · exact (congrArg₂ List.cons (blockAt_concat enclosing.1 line) kept).symm
      · rw [next, body, same]
      · rintro ⟨k, encloses, greatest, same⟩
        rw [Nat.le_antisymm (topmost k encloses) (greatest inner enclosing), next, body,
          Option.some_inj] at same
        exact same.symm

/-- **One line keeps the stack in step with the lines.** -/
theorem Tracks.advance (tracks : Tracks lines blocks ks) (line : Head) :
    ∃ ks', Tracks (lines ++ [line]) (advance blocks line).1 ks' := by
  obtain ⟨left, sorted, mem_left, settled, -⟩ := tracks.settle line
  unfold ClassBlock.advance
  rw [settled]
  by_cases opens : line.opens = true
  · refine ⟨lines.length :: left, ?_, fun k => ?_, ?_⟩
    · exact List.pairwise_cons.mpr ⟨fun k mem => ((mem_left k).mp mem).1, sorted⟩
    · rw [encloses_length_concat_iff, List.mem_cons, mem_left, and_iff_left opens]
    · rw [if_pos opens, List.map_cons, blockAt, List.getElem?_concat_length,
        List.getElem?_eq_none (by simp)]
      rfl
  · refine ⟨left, sorted, fun k => ?_, if_neg opens⟩
    rw [encloses_length_concat_iff, mem_left, or_iff_right fun opened => opens opened.2]

/-! ### All lines -/

/-- Further lines keep the stack in step. -/
theorem Tracks.run (tracks : Tracks lines blocks ks) (more : List Head) :
    ∃ ks', Tracks (lines ++ more)
      (more.foldl (fun blocks line => (ClassBlock.advance blocks line).1) blocks) ks' := by
  induction more generalizing lines blocks ks with
  | nil => exact ⟨ks, by rwa [List.append_nil]⟩
  | cons line more ih =>
      obtain ⟨stepped, tracks⟩ := tracks.advance line
      rw [List.append_cons]
      exact ih tracks

theorem exists_tracks_after (entered : List (List Char × Bool)) :
    ∃ ks, Tracks (entered.filterMap headOf?) (after entered) ks := by
  have start : Tracks [] [] [] := by
    refine ⟨List.Pairwise.nil, fun k => iff_of_false List.not_mem_nil ?_, rfl⟩
    rintro ⟨inside, -⟩
    exact Nat.not_lt_zero k inside
  rw [after_eq]
  exact start.run _

/-- A block's body is indented more than its first line. -/
theorem Encloses.indent_lt_body (encloses : Encloses lines k lines.length) {body : Nat}
    (seen : body ∈ (blockAt lines k).body) : (blockAt lines k).indent < body := by
  obtain ⟨inside, first, there, -, deeper⟩ := encloses
  obtain ⟨line, next, rfl⟩ := Option.map_eq_some_iff.mp seen
  rw [blockAt, Option.mem_def.mp there]
  exact deeper _ (Nat.lt_succ_self k) inside line next

end ClassBlock

open ClassBlock in
/-- **A line's place in a class body, from the lines before it.**  After any lines, the next one
stands directly in a class body just if it counts, a line before it encloses it, and it is
indented like the line behind the innermost such line.  The open blocks are indented more the
further in they are, and the body of each more than its first line. -/
theorem inBody_iff_enclosed (entered : List (List Char × Bool)) (next : List Char × Bool) :
    ((enter (after entered) next.1 next.2).2 = true ↔
      ∃ line ∈ headOf? next,
        InBody (entered.filterMap headOf? ++ [line]) (entered.filterMap headOf?).length) ∧
    (after entered).Pairwise (fun inner outer => outer.indent < inner.indent) ∧
    ∀ block ∈ after entered, ∀ body ∈ block.body, block.indent < body := by
  obtain ⟨ks, tracks⟩ := exists_tracks_after entered
  refine ⟨?_, ?_, ?_⟩
  · rw [enter_eq]
    cases headOf? next with
    | none => exact iff_of_false Bool.false_ne_true fun ⟨_, counts, _⟩ => nomatch counts
    | some line =>
        obtain ⟨-, -, -, -, answer⟩ := tracks.settle line
        exact answer.trans ⟨fun inBody => ⟨line, rfl, inBody⟩, fun ⟨_, rfl, inBody⟩ => inBody⟩
  · rw [tracks.blocks_eq, List.pairwise_map]
    refine tracks.sorted.imp_of_mem fun inner outer less => ?_
    exact ((tracks.mem_iff _).mp outer).indent_lt ((tracks.mem_iff _).mp inner) less
  · rw [tracks.blocks_eq, List.forall_mem_map]
    exact fun k mem body seen => ((tracks.mem_iff k).mp mem).indent_lt_body seen

end Amalgam
