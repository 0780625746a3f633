import Amalgam.Proofs.ReplacementFields
import Amalgam.Proofs.StatementLines
import Amalgam.Proofs.TokenPlaces

/-!
# Segments and tokens partition a line

The segments of a line follow one another from its first byte to its last, none is empty, and
none begins or ends inside a character.  Each token lies in one segment of code, and what is
left of the code between tokens is blank, or text of a replacement field: a formatted string
is one lexeme, and its fields are code without any tokens.

That a character is code can be seen from the lexeme it is in (`exists_lexeme_at`), and for
the lexeme of a string literal from the grammar of fields (`StringLiteral.mark_eq_code_iff`).

## Main statements

* `Segment.Cover`, `Partitions` — what a partition of a line is
* `exists_lexeme_at`, `StringLiteral.mark_eq_code_iff`
* `lexAll_partitions`
-/

namespace Amalgam

open Renaming

/-! ### Segments cover a line -/

/-- **Segments cover a line** from byte `start` on: none is empty, each has its text from the
line, where the one before it ends, and the last ends with the line. -/
inductive Segment.Cover (line : List Char) : Nat → List Segment → Prop where
  | nil : Cover line (byteWidth line) []
  | cons {front rear : List Char} {s : Segment} {rest : List Segment} (some : s.text ≠ [])
      (text : line = front ++ (s.text ++ rear))
      (later : Cover line (byteWidth front + byteWidth s.text) rest) :
      Cover line (byteWidth front) (s :: rest)

/-- Segments that are not empty cover their text. -/
theorem Segment.cover_of_textOf {line : List Char} {segs : List Segment}
    (some : ∀ s ∈ segs, s.text ≠ []) {front : List Char} (text : line = front ++ textOf segs) :
    Cover line (byteWidth front) segs := by
  induction segs generalizing front with
  | nil =>
      have all : line = front := text.trans (List.append_nil front)
      rw [← all]
      exact .nil
  | cons s rest ih =>
      refine .cons (some s List.mem_cons_self) text ?_
      rw [← byteWidth_append]
      refine ih (fun t member => some t (List.mem_cons_of_mem _ member)) ?_
      rw [text, List.append_assoc]
      rfl

/-- A piece that is pushed leaves no segment empty. -/
theorem Segment.push_ne_nil {s : Segment} {segs : List Segment} (some : ∀ t ∈ segs, t.text ≠ []) :
    ∀ t ∈ push s segs, t.text ≠ [] := by
  unfold push
  split
  · exact some
  next nonempty =>
    have pushed : ∀ t ∈ s :: segs, t.text ≠ [] := List.forall_mem_cons.mpr ⟨nonempty, some⟩
    split
    next text later _ =>
      refine List.forall_mem_cons.mpr ⟨?_, fun t member => some t (List.mem_cons_of_mem _ member)⟩
      exact List.append_ne_nil_of_left_ne_nil nonempty text
    next => exact pushed

theorem segmentsOf_ne_nil (ls : List Lexeme) : ∀ s ∈ segmentsOf ls, s.text ≠ [] := by
  unfold segmentsOf
  induction ls.flatMap Lexeme.pieces with
  | nil => simp
  | cons piece rest ih => exact Segment.push_ne_nil ih

/-! ### The lexeme at a place -/

/-- A character marked as code is where a place is. -/
theorem Renaming.CodePlace.mark_eq {segs : List Segment} (place : CodePlace segs) {c : Char}
    {cs : List Char} (next : place.rest = c :: cs) :
    (Segment.marksOf segs)[place.start]? = some (c, .code) := by
  obtain ⟨front, left, rest, rear, rfl⟩ := place
  cases next
  have length : (Segment.marksOf front).length = (Segment.textOf front).length := by
    rw [← Segment.map_fst_marksOf, List.length_map]
  rw [Segment.marksOf, List.flatMap_append, ← Segment.marksOf, CodePlace.start, CodePlace.passed,
    List.length_append, ← length, List.getElem?_append_right (Nat.le_add_right _ _)]
  simp [Segment.marks]

/-- The element of a list of lists at an index is an element of one of the lists. -/
theorem exists_of_getElem?_flatMap {α β : Type} {f : α → List β} {xs : List α} {n : Nat} {y : β}
    (found : (xs.flatMap f)[n]? = some y) :
    ∃ before x after k, xs = before ++ x :: after ∧ n = (before.flatMap f).length + k ∧
      (f x)[k]? = some y := by
  induction xs generalizing n with
  | nil => cases found
  | cons x xs ih =>
      rw [List.flatMap_cons] at found
      by_cases here : n < (f x).length
      · rw [List.getElem?_append_left here] at found
        exact ⟨[], x, xs, n, rfl, (Nat.zero_add n).symm, found⟩
      · rw [List.getElem?_append_right (Nat.le_of_not_lt here)] at found
        obtain ⟨before, z, after, k, rfl, index, element⟩ := ih found
        refine ⟨x :: before, z, after, k, rfl, ?_, element⟩
        rw [List.flatMap_cons, List.length_append]
        omega

/-- A list is cut at an index. -/
theorem exists_split_of_getElem? {α : Type} {xs : List α} {n : Nat} {x : α}
    (found : xs[n]? = some x) : ∃ left right, xs = left ++ x :: right ∧ left.length = n := by
  obtain ⟨short, element⟩ := List.getElem?_eq_some_iff.mp found
  refine ⟨xs.take n, xs.drop (n + 1), ?_, List.length_take_of_le (Nat.le_of_lt short)⟩
  rw [← element, ← List.drop_eq_getElem_cons short, List.take_append_drop]

/-- **Each character of the code is one of a lexeme.** -/
theorem exists_lexeme_at {ls : List Lexeme} (place : CodePlace (segmentsOf ls)) {c : Char}
    {cs : List Char} (next : place.rest = c :: cs) :
    ∃ before l after left right, ls = before ++ l :: after ∧ l.text = left ++ c :: right ∧
      place.passed = Lexeme.textOf before ++ left ∧ l.marks[left.length]? = some (c, .code) := by
  have mark := place.mark_eq next
  rw [Segment.marksOf_segmentsOf] at mark
  obtain ⟨before, l, after, k, split, index, element⟩ := exists_of_getElem?_flatMap mark
  have character : l.text[k]? = some c := by
    rw [← l.map_fst_marks, List.getElem?_map, element]
    rfl
  obtain ⟨left, right, text, rfl⟩ := exists_split_of_getElem? character
  refine ⟨before, l, after, left, right, split, text, ?_, element⟩
  -- both are the line up to the character
  have whole : place.passed ++ (place.rest ++ Segment.textOf place.rear) =
      Lexeme.textOf before ++ left ++ (c :: right ++ Lexeme.textOf after) := by
    rw [← place.textOf_eq, textOf_segmentsOf, split, Lexeme.textOf_append, Lexeme.textOf_cons, text]
    simp
  refine (List.append_inj whole ?_).1
  rw [List.length_append, Lexeme.textOf_eq_marks, List.length_map]
  exact index

/-! ### The code of a string literal -/

theorem getElem?_literalMarks_ne {text : List Char} {n : Nat} {c : Char} :
    (literalMarks text)[n]? ≠ some (c, .code) := by
  simp [literalMarks]

/-- **The code of a string literal is the text of its fields**, if it is a formatted one on one
line; otherwise it has none. -/
theorem StringLiteral.mark_eq_code_iff (lit : StringLiteral) {n : Nat} {c : Char} :
    lit.lexeme.marks[n]? = some (c, .code) ↔ lit.isFormatted = true ∧ lit.long = false ∧
      ∃ left right, lit.body = left ++ c :: right ∧ n = lit.opening.length + left.length ∧
        IsFieldChar true left c := by
  by_cases fields : (lit.isFormatted && !lit.long) = true
  · have kinds := fields
    rw [Bool.and_eq_true, Bool.not_eq_true'] at kinds
    rw [lexeme, if_pos fields, Lexeme.marks_formatted]
    refine ⟨fun found => ?_, ?_⟩
    · by_cases inOpening : n < lit.opening.length
      · rw [List.getElem?_append_left (by simpa [literalMarks] using inOpening)] at found
        exact absurd found getElem?_literalMarks_ne
      · rw [List.getElem?_append_right (by simpa [literalMarks] using inOpening)] at found
        obtain ⟨ms, marks, text⟩ := marksOf_fieldPieces lit.quotes none lit.body
        have inBody : n - (literalMarks lit.opening).length < ms.length := by
          by_contra behind
          rw [marks, List.getElem?_append_right (Nat.le_of_not_lt behind)] at found
          exact getElem?_literalMarks_ne found
        have character : lit.body[n - (literalMarks lit.opening).length]? = some c := by
          rw [marks, List.getElem?_append_left inBody] at found
          rw [← text, List.getElem?_map, found]
          rfl
        obtain ⟨left, right, body, length⟩ := exists_split_of_getElem? character
        rw [← length, body] at found
        refine ⟨kinds.1, kinds.2, left, right, body, ?_, (Amalgam.mark_eq_code_iff _).mp found⟩
        rw [length, literalMarks, List.length_map]
        omega
    · rintro ⟨-, -, left, right, body, rfl, field⟩
      have mark :
          (Segment.marksOf (fieldPieces lit.quotes none (left ++ c :: right)))[left.length]? =
            some (c, .code) := (Amalgam.mark_eq_code_iff lit.quotes).mpr field
      rw [List.getElem?_append_right (by simp [literalMarks]), body]
      simpa [literalMarks] using mark
  · rw [lexeme, if_neg fields, Lexeme.marks_literal]
    refine ⟨fun found => absurd found getElem?_literalMarks_ne, ?_⟩
    rintro ⟨formatted, short, -⟩
    exact absurd (by rw [formatted, short]; rfl) fields

/-! ### Partitions -/

/-- The character `c` behind the text `passed` is text of a replacement field, in a formatted
string among the lexemes. -/
def InField (ls : List Lexeme) (passed : List Char) (c : Char) : Prop :=
  ∃ (before : List Lexeme) (lit : StringLiteral) (after : List Lexeme) (left right : List Char),
    ls = before ++ lit.lexeme :: after ∧ lit.isFormatted = true ∧ lit.long = false ∧
    lit.body = left ++ c :: right ∧ IsFieldChar true left c ∧
    passed = Lexeme.textOf before ++ (lit.opening ++ left)

/-- **A line is partitioned**: into segments, and the code among them into tokens, blanks and
the text of replacement fields. -/
structure Partitions (state : Option Quote) (line : List Char) (lexed : LexedLine) : Prop where
  cover : Segment.Cover line 0 lexed.segments
  token_nonempty : ∀ t ∈ lexed.tokens, t.start < t.stop
  tokens_apart : lexed.tokens.Pairwise fun t u => t.stop ≤ u.start
  token_in_code : ∀ t ∈ lexed.tokens, ∃ place : CodePlace lexed.segments,
    byteWidth place.passed = t.start ∧ t.text.toList <+: place.rest
  code : ∀ (place : CodePlace lexed.segments) (c : Char), place.rest.head? = some c →
    (∃ t ∈ lexed.tokens, t.start ≤ byteWidth place.passed ∧
      byteWidth place.passed + c.utf8Size ≤ t.stop) ∨
    isLineBlank c = true ∨ InField (lexLine state line) place.passed c

/-- A character of the code is in a token, blank or in a field. -/
theorem code_cases {ls : List Lexeme} (shaped : ∀ l ∈ ls, l.Shaped)
    (place : CodePlace (segmentsOf ls)) {c : Char} (next : place.rest.head? = some c) :
    (∃ t ∈ tokensOf ls, t.start ≤ byteWidth place.passed ∧
      byteWidth place.passed + c.utf8Size ≤ t.stop) ∨
    isLineBlank c = true ∨ InField ls place.passed c := by
  obtain ⟨cs, next⟩ := List.head?_eq_some_iff.mp next
  obtain ⟨before, l, after, left, right, rfl, text, passed, mark⟩ := exists_lexeme_at place next
  have shape := shaped l (by simp)
  cases l with
  | blank blanks =>
      have member : c ∈ blanks := by
        rw [show blanks = left ++ c :: right from text]
        simp
      exact Or.inr (Or.inl (shape c member))
  | token kind word =>
      have width : byteWidth word = byteWidth left + (c.utf8Size + byteWidth right) := by
        rw [show word = left ++ c :: right from text, byteWidth_append]
        rfl
      refine Or.inl ⟨_, mem_tokensFrom_append 0 before kind word after, ?_, ?_⟩
      · rw [passed, byteWidth_append]
        change 0 + byteWidth (Lexeme.textOf before) ≤ _
        omega
      · rw [passed, byteWidth_append, Token.stop, utf8ByteSize_ofList, width]
        change _ ≤ 0 + byteWidth (Lexeme.textOf before) + _
        omega
  | literal literal =>
      rw [Lexeme.marks_literal] at mark
      exact absurd mark getElem?_literalMarks_ne
  | unclosed quote literal =>
      rw [Lexeme.marks_unclosed] at mark
      exact absurd mark getElem?_literalMarks_ne
  | formatted opening body closing =>
      obtain ⟨lit, formatted, short, rfl, rfl, rfl⟩ := shape
      have same : lit.lexeme = .formatted lit.opening lit.body lit.quotes := by
        rw [StringLiteral.lexeme, if_pos (by rw [formatted, short]; rfl)]
      rw [← same] at mark
      obtain ⟨-, -, left', right', inBody, length, field⟩ := lit.mark_eq_code_iff.mp mark
      refine Or.inr (Or.inr ⟨before, lit, after, left', right', by rw [same], formatted, short,
        inBody, field, ?_⟩)
      have whole : left ++ c :: right = lit.opening ++ left' ++ (c :: right' ++ lit.quotes) := by
        rw [← show lit.opening ++ lit.body ++ lit.quotes = left ++ c :: right from text, inBody]
        simp
      rw [passed, (List.append_inj whole (by rw [List.length_append, length])).1]

/-- **One line, lexed in any state, is partitioned.** -/
theorem lexFrom_partitions (state : Option Quote) (line : List Char) :
    Partitions state line (lexFrom state line).1 where
  cover := by
    have text : line = [] ++ Segment.textOf (segmentsOf (lexLine state line)) := by
      rw [List.nil_append, textOf_segmentsOf, textOf_lexLine]
    exact Segment.cover_of_textOf (segmentsOf_ne_nil _) text
  token_nonempty t member := by
    obtain ⟨before, text, after, lexed, -, spelled⟩ := exists_of_mem_tokensFrom member
    have some : text ≠ [] := lexLine_shaped state line (.token t.kind text) (by rw [lexed]; simp)
    rw [Token.stop, spelled, utf8ByteSize_ofList]
    cases text with
    | nil => exact absurd rfl some
    | cons c cs => exact Nat.lt_add_of_pos_right (byteWidth_cons_pos c cs)
  tokens_apart := pairwise_tokensFrom 0 _
  token_in_code t member := exists_codePlace_of_mem (lexLine_shaped state line) member
  code place c next := code_cases (lexLine_shaped state line) place next

/-- **Segments and tokens partition every line.**  Let a file's lines be lexed one after the
other, from any state on.  There is one result for each line.  Its segments are non-empty, follow
one another without a gap from byte 0 to the end of the line, and begin and end between
characters.  Its tokens are non-empty, follow one another without overlapping, and each lies in
one segment of code.  A character of the code that is in no token is blank, or it is text of a
replacement field of a formatted string. -/
theorem lexAll_partitions (state : Option Quote) (lines : List (List Char)) :
    (lexAll state lines).length = lines.length ∧
    ∀ found ∈ lines.zip (lexAll state lines), ∃ state',
      found.2 = (lexFrom state' found.1).1 ∧ Partitions state' found.1 found.2 := by
  refine ⟨length_lexAll state lines, ?_⟩
  induction lines generalizing state with
  | nil => simp
  | cons line rest ih =>
      intro found member
      rw [lexAll, List.zip_cons_cons] at member
      rcases List.mem_cons.mp member with rfl | later
      · exact ⟨state, rfl, lexFrom_partitions state line⟩
      · exact ih (lexFrom state line).2 found later

/-- A line that starts in a string and has a formatted one. -/
def closingLine : List Char :=
  "ü''' + f\"\x7by\x7d é\"".toList

/-- The line, behind one that opens the string. -/
def closingLines : List (List Char) :=
  ["s = '''é".toList, closingLine]

/-- The second line is partitioned into five segments. -/
theorem lexAll_partitions_closingLines :
    ∃ state lexed, (closingLine, lexed) ∈ closingLines.zip (lexAll none closingLines) ∧
      lexed.segments.map Segment.text =
        ["ü'''", " + ", "f\"\x7b", "y", "\x7d é\""].map String.toList ∧
      Partitions state closingLine lexed := by
  have member : (closingLine, (lexFrom (some .single) closingLine).1) ∈
      closingLines.zip (lexAll none closingLines) := by
    decide +kernel
  obtain ⟨state, -, partitions⟩ := (lexAll_partitions none closingLines).2 _ member
  exact ⟨state, _, member, by decide +kernel, partitions⟩

end Amalgam
