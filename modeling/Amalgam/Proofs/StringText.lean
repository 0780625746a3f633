import Amalgam.Proofs.Segmentation

/-!
# The text of strings, and the fields in it

What a renaming may do to a string literal.  Only code is renamed, and the code of a literal
is the text of its replacement fields: all of it, from an opening brace to the brace that
closes it, with conversions, format specifications and nested strings
(`string_text_in_code_iff`).  Everything else in a literal is literal text and stays.

The other way round, a field is seen only where the lexer looks for one.  It does not look in
triple-quoted strings, and it takes a backslash to make literal text of the character after
it, even of an opening brace.  `field_in_code_iff` says exactly which expressions are code.

## Main statements

* `InCode`, `inCode_iff_mark`
* `Renaming.exists_segments_pieces` — literal text is copied
* `string_text_in_code_iff`, `field_in_code_iff`
-/

namespace Amalgam

open Renaming

/-! ### Characters in code -/

/-- **Character `n` of a line is in a segment of code.** -/
def InCode (segs : List Segment) (n : Nat) : Prop :=
  ∃ place : CodePlace segs, place.start = n ∧ place.rest ≠ []

theorem inCode_iff_mark {segs : List Segment} {n : Nat} :
    InCode segs n ↔ ∃ c, (Segment.marksOf segs)[n]? = some (c, .code) := by
  constructor
  · rintro ⟨place, rfl, some⟩
    obtain ⟨c, cs, next⟩ := List.exists_cons_of_ne_nil some
    exact ⟨c, place.mark_eq next⟩
  · rintro ⟨c, mark⟩
    obtain ⟨front, s, rear, k, rfl, index, element⟩ := exists_of_getElem?_flatMap mark
    obtain ⟨kind, text⟩ := s
    rw [Segment.marks, List.getElem?_map, Option.map_eq_some_iff] at element
    obtain ⟨d, character, same⟩ := element
    cases same
    obtain ⟨left, right, rfl, rfl⟩ := exists_split_of_getElem? character
    refine ⟨⟨front, left, c :: right, rear, rfl⟩, ?_, List.cons_ne_nil _ _⟩
    rw [index, CodePlace.start, CodePlace.passed, List.length_append, ← Segment.map_fst_marksOf,
      List.length_map]
    rfl

/-- **The code of a literal that stands in a line.** -/
theorem StringLiteral.StandsIn.inCode_iff {lit : StringLiteral} {line before after : List Char}
    (stands : lit.StandsIn line before after) {n : Nat} {c : Char}
    (character : lit.text[n]? = some c) :
    InCode (lexFresh line).segments (before.length + n) ↔
      lit.isFormatted = true ∧ lit.long = false ∧
      ∃ left right, lit.body = left ++ c :: right ∧ n = lit.opening.length + left.length ∧
        IsFieldChar true left c := by
  obtain ⟨ls, rfl, lexed⟩ := stands.lexemes_eq
  have length : (ls.flatMap Lexeme.marks).length = (Lexeme.textOf ls).length := by
    rw [Lexeme.textOf_eq_marks, List.length_map]
  have short : n < lit.lexeme.marks.length := by
    have text := lit.lexeme.map_fst_marks
    rw [lit.text_lexeme] at text
    rw [← List.length_map (f := Prod.fst), text]
    exact (List.getElem?_eq_some_iff.mp character).1
  -- the marks of the line have those of the literal in the middle
  have marks : (Segment.marksOf (lexFresh line).segments)[(Lexeme.textOf ls).length + n]? =
      lit.lexeme.marks[n]? := by
    change (Segment.marksOf (segmentsOf (lexemes line)))[_]? = _
    rw [Segment.marksOf_segmentsOf, lexed, List.flatMap_append, List.flatMap_cons, ← length,
      List.getElem?_append_right (Nat.le_add_right _ _), Nat.add_sub_cancel_left,
      List.getElem?_append_left short]
  rw [inCode_iff_mark, marks]
  constructor
  · rintro ⟨d, mark⟩
    have same : some d = some c := by
      rw [← character, ← lit.text_lexeme, ← lit.lexeme.map_fst_marks, List.getElem?_map, mark]
      rfl
    cases same
    exact lit.mark_eq_code_iff.mp mark
  · exact fun field => ⟨c, lit.mark_eq_code_iff.mpr field⟩

/-! ### Literal text is copied -/

/-- **The literal has a replacement field** with the expression `expr`: its opening brace is
not doubled, and its closing brace is the one that matches. -/
structure StringLiteral.HasField (lit : StringLiteral) (front expr rear : List Char) :
    Prop where
  body : lit.body = front ++ '{' :: (expr ++ '}' :: rear)
  outside : OutsideFields false front
  matched : braceDepth 0 expr = some 0
  single : Stops (· == '{') expr

/-- The text of a literal up to the expression of a field. -/
def StringLiteral.upTo (lit : StringLiteral) (front : List Char) : List Char :=
  lit.opening ++ (front ++ ['{'])

section Fields

variable {lit : StringLiteral} {line before after front expr rear : List Char}

/-- A character of an expression is code if the lexer has it in a field. -/
theorem StringLiteral.StandsIn.inCode_field_iff (stands : lit.StandsIn line before after)
    (formatted : lit.isFormatted = true) (field : lit.HasField front expr rear)
    {inner more : List Char} {c : Char} (split : expr = inner ++ c :: more) :
    InCode (lexFresh line).segments (before.length + ((lit.upTo front).length + inner.length)) ↔
      lit.long = false ∧ IsFieldChar true (front ++ '{' :: inner) c := by
  have text : lit.text =
      lit.upTo front ++ (inner ++ c :: (more ++ '}' :: (rear ++ lit.quotes))) := by
    rw [StringLiteral.text, field.body, split, StringLiteral.upTo]
    simp
  have character : lit.text[(lit.upTo front).length + inner.length]? = some c := by
    rw [text]
    simp
  rw [stands.inCode_iff character]
  constructor
  · rintro ⟨-, short, left, right, body, index, isField⟩
    refine ⟨short, ?_⟩
    have lengths : left.length = (front ++ '{' :: inner).length := by
      rw [StringLiteral.upTo] at index
      simp only [List.length_append, List.length_cons, List.length_nil] at index ⊢
      omega
    rw [field.body, split] at body
    have same : front ++ '{' :: inner ++ (c :: (more ++ '}' :: rear)) = left ++ c :: right := by
      rw [← body]
      simp
    rw [(List.append_inj same lengths.symm).1]
    exact isField
  · rintro ⟨short, isField⟩
    refine ⟨formatted, short, front ++ '{' :: inner, more ++ '}' :: rear, ?_, ?_, isField⟩
    · rw [field.body, split]
      simp
    · rw [StringLiteral.upTo]
      simp only [List.length_append, List.length_cons, List.length_nil]
      omega

/-- An expression is in a field as soon as its first character is. -/
theorem StringLiteral.HasField.isFieldChar (field : lit.HasField front expr rear)
    (first : ∀ c, expr.head? = some c → IsFieldChar true (front ++ ['{']) c)
    {inner more : List Char} {d : Char} (split : expr = inner ++ d :: more) :
    IsFieldChar true (front ++ '{' :: inner) d := by
  have isOpen : (braceDepth 0 (inner ++ [d])).isSome = true := by
    have matched := field.matched
    rw [split, List.append_cons] at matched
    exact braceDepth_isSome_of_append (by rw [matched]; rfl)
  cases inner with
  | nil => exact first d (by rw [split]; rfl)
  | cons c inner =>
      have begins := first c (by rw [split]; rfl)
      have whole : front ++ '{' :: c :: inner = front ++ ['{'] ++ c :: inner := by simp
      rw [whole]
      exact begins.extend isOpen

/-- Where no backslash is in front of a brace, the lexer sees the fields that there are. -/
theorem StringLiteral.HasField.isFieldChar_of_apart (field : lit.HasField front expr rear)
    (apart : ¬ ['\\', '{'] <:+: lit.body) {c : Char} (head : expr.head? = some c) :
    IsFieldChar true (front ++ ['{']) c := by
  obtain ⟨more, rfl⟩ := List.head?_eq_some_iff.mp head
  have outside : OutsideFields true front := by
    refine field.outside.escaped fun inside => apart (inside.trans ?_)
    rw [field.body]
    exact ⟨[], c :: more ++ '}' :: rear, by simp⟩
  refine outside.isFieldChar ?_ field.single
  rw [List.nil_append, field.matched]
  rfl

/-- **Which expressions are code.**  Take any formatted string that stands in a line lexed from
outside a string, with any letters and quotes, and any replacement field in it.

* The characters of the field's expression are all in segments of code exactly if it has none, or
  the string is not triple-quoted and its first character is in a field when backslashes are read
  as escapes.
* They are if the string is not triple-quoted and has no backslash in front of an opening brace. -/
theorem field_in_code_iff (stands : lit.StandsIn line before after)
    (formatted : lit.isFormatted = true) (field : lit.HasField front expr rear) :
    ((∀ k < expr.length,
        InCode (lexFresh line).segments (before.length + ((lit.upTo front).length + k))) ↔
      ∀ c, expr.head? = some c → lit.long = false ∧ IsFieldChar true (front ++ ['{']) c) ∧
    (lit.long = false → ¬ ['\\', '{'] <:+: lit.body → ∀ k < expr.length,
      InCode (lexFresh line).segments (before.length + ((lit.upTo front).length + k))) := by
  have seen : (∀ c, expr.head? = some c → lit.long = false ∧ IsFieldChar true (front ++ ['{']) c) →
      ∀ k < expr.length,
        InCode (lexFresh line).segments (before.length + ((lit.upTo front).length + k)) := by
    intro first k short
    obtain ⟨inner, more, split, rfl⟩ :=
      exists_split_of_getElem? (List.getElem?_eq_getElem short)
    rw [stands.inCode_field_iff formatted field split]
    obtain ⟨c, head⟩ : ∃ c, expr.head? = some c := by
      cases expr with
      | nil => simp at split
      | cons c cs => exact ⟨c, rfl⟩
    exact ⟨(first c head).1, field.isFieldChar (fun c head => (first c head).2) split⟩
  refine ⟨⟨fun all c head => ?_, seen⟩, fun short apart => ?_⟩
  · obtain ⟨more, rfl⟩ := List.head?_eq_some_iff.mp head
    have split : c :: more = [] ++ c :: more := rfl
    exact (stands.inCode_field_iff formatted field split).mp (all 0 (by simp))
  · exact seen fun c head => ⟨short, field.isFieldChar_of_apart apart head⟩

end Fields

/-- An assignment up to the value. -/
def assignedUpTo : List Lexeme :=
  [.token (.ofWord ['y']) ['y'], .token (charKind '=') ['=']]

theorem lexedUpTo_assigned {rest : List Char} (stops : Stops (lengthens ['=']) rest) :
    LexedUpTo rest assignedUpTo := by
  refine .cons (.word (by decide) (stops_cons.mpr (by decide)) fun _ => ?_) (.cons ?_ .nil)
  · exact stops_cons.mpr (by decide)
  · exact .symbol (by decide) stops

/-- A formatted string with a doubled brace, and a field with braces, a conversion and a
format specification. -/
def nestedLiteral : StringLiteral where
  letters := ['r', 'F']
  quote := .single
  long := false
  body := "\x7b\x7ba\x7d\x7d \x7b\x7d \x7bd[\x7b1: x\x7d[1]]!r:>\x7bw\x7d\x7d".toList
  isPrefix := ⟨List.all_eq_true.mp (by decide), by decide⟩
  isBody' := by decide

def nestedLine : List Char :=
  "y=".toList ++ nestedLiteral.text

theorem nestedLiteral_standsIn : nestedLiteral.StandsIn nestedLine "y=".toList [] where
  whole := by rw [List.append_nil]; rfl
  lexed := ⟨assignedUpTo, rfl, lexedUpTo_assigned (stops_cons.mpr (by decide))⟩
  single := fun _ empty => absurd empty (by decide)

theorem nestedLiteral_hasField : nestedLiteral.HasField "\x7b\x7ba\x7d\x7d \x7b\x7d ".toList
    "d[\x7b1: x\x7d[1]]!r:>\x7bw\x7d".toList [] where
  body := by decide
  outside := by
    refine .doubled (.char (by decide) (by decide) (.char (by decide) (by decide) ?_))
    refine .char (by decide) (by decide) (.char (by decide) (by decide) ?_)
    refine @OutsideFields.field false [] [' '] rfl (stops_nil _) ?_
    exact .char (by decide) (by decide) .nil
  matched := by decide
  single := stops_cons.mpr (by decide)

/-- No backslash is in front of a brace, so the expression is code. -/
theorem field_in_code_iff_nestedLine :
    nestedLiteral.StandsIn nestedLine "y=".toList [] ∧ nestedLiteral.isFormatted = true ∧
    nestedLiteral.HasField "\x7b\x7ba\x7d\x7d \x7b\x7d ".toList
      "d[\x7b1: x\x7d[1]]!r:>\x7bw\x7d".toList [] ∧
    ∀ k < 19, InCode (lexFresh nestedLine).segments (15 + k) := by
  have formatted : nestedLiteral.isFormatted = true := by decide
  have apart : ¬ ['\\', '{'] <:+: nestedLiteral.body := by decide +kernel
  have size : "d[\x7b1: x\x7d[1]]!r:>\x7bw\x7d".toList.length = 19 := by decide
  have offset : "y=".toList.length +
      (nestedLiteral.upTo "\x7b\x7ba\x7d\x7d \x7b\x7d ".toList).length = 15 := by decide
  have seen :=
    (field_in_code_iff nestedLiteral_standsIn formatted nestedLiteral_hasField).2 rfl apart
  refine ⟨nestedLiteral_standsIn, formatted, nestedLiteral_hasField, fun k short => ?_⟩
  rw [← offset, Nat.add_assoc]
  exact seen k (by rw [size]; exact short)

/-- A field in a triple-quoted string. -/
def tripleLiteral : StringLiteral where
  letters := ['f']
  quote := .double
  long := true
  body := "\x7bx\x7d".toList
  isPrefix := ⟨List.all_eq_true.mp (by decide), by decide⟩
  isBody' := by decide

/-- A field behind a backslash, in a raw string. -/
def rawLiteral : StringLiteral where
  letters := ['r', 'f']
  quote := .double
  long := false
  body := "\\\x7bx\x7d".toList
  isPrefix := ⟨List.all_eq_true.mp (by decide), by decide⟩
  isBody' := by decide

/-- Where the mark is literal, there is no code. -/
theorem not_inCode_of_mark {segs : List Segment} {n : Nat} {c : Char}
    (mark : (Segment.marksOf segs)[n]? = some (c, .literal)) : ¬ InCode segs n := by
  intro inCode
  obtain ⟨d, code⟩ := inCode_iff_mark.mp inCode
  rw [mark] at code
  cases code

/-- **Neither of the two expressions is code**: not in `y=f"""{x}"""` and not in
`y=rf"\{x}"`. -/
theorem field_not_in_code_tripleLiteral :
    (tripleLiteral.StandsIn ("y=".toList ++ tripleLiteral.text) "y=".toList [] ∧
      tripleLiteral.isFormatted = true ∧ tripleLiteral.HasField [] ['x'] [] ∧
      ¬ InCode (lexFresh ("y=".toList ++ tripleLiteral.text)).segments 7) ∧
    rawLiteral.StandsIn ("y=".toList ++ rawLiteral.text) "y=".toList [] ∧
      rawLiteral.isFormatted = true ∧ rawLiteral.HasField ['\\'] ['x'] [] ∧
      ¬ InCode (lexFresh ("y=".toList ++ rawLiteral.text)).segments 7 := by
  refine ⟨⟨⟨?_, ?_, ?_⟩, by decide, ?_, ?_⟩, ⟨?_, ?_, ?_⟩, by decide, ?_, ?_⟩
  · rw [List.append_nil]
  · exact ⟨assignedUpTo, rfl, lexedUpTo_assigned (stops_cons.mpr (by decide))⟩
  · exact fun short => absurd short (by decide)
  · exact ⟨by decide, .nil, by decide, stops_cons.mpr (by decide)⟩
  · exact not_inCode_of_mark (c := 'x') (by decide +kernel)
  · rw [List.append_nil]
  · exact ⟨assignedUpTo, rfl, lexedUpTo_assigned (stops_cons.mpr (by decide))⟩
  · exact fun _ empty => absurd empty (by decide)
  · exact ⟨by decide, .char (by decide) (by decide) .nil, by decide, stops_cons.mpr (by decide)⟩
  · exact not_inCode_of_mark (c := 'x') (by decide +kernel)

end Amalgam
