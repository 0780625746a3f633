import Amalgam.Proofs.Alignment
import Mathlib.Data.List.Forall2

/-!
# Renaming inside formatted strings

A formatted string is one lexeme, but the fields in its body are program text and a
renaming reaches into them.  Two things have to survive.

**The body ends where it did.**  A body is a run of characters and escaped characters.  A
key has neither quote nor backslash nor newline, and neither has a replacement, so one may
stand for the other even right after a backslash (`isBody_newText`).

**The pieces are the same.**  Where fields begin and end is a matter of braces and escapes
in literal text.  A swap is in a field, and braces are in no key and no replacement.  So the
pieces of the renamed body have the same kinds, the same literal texts, and code where
there was code (`fieldPieces_alike`).

## Main statements

* `Lexeme.map_fst_marks` — marks hold the text of a lexeme
* `isBody_newText`, `fieldPieces_alike`
-/

namespace Amalgam

/-! ### The pieces of a body -/

/-- The kind of text that the rest of a body starts with. -/
def fieldKind : Option Nat → Segment.Kind
  | none => .literal
  | some _ => .code

namespace Segment

theorem foldr_attach (opening : List Char) (s : Segment) (rest : List Segment) :
    opening.foldr attach (s :: rest) = ⟨s.kind, opening ++ s.text⟩ :: rest := by
  induction opening with
  | nil => rfl
  | cons c opening ih => rw [List.foldr_cons, ih, attach, List.cons_append]

end Segment

section Pieces

variable (closing : List Char)

theorem fieldPieces_cons (field : Option Nat) (body : List Char) :
    ∃ text rest, fieldPieces closing field body = ⟨fieldKind field, text⟩ :: rest := by
  have attached : ∀ {c : Char} {kind : Segment.Kind} {pieces : List Segment},
      (∃ text rest, pieces = ⟨kind, text⟩ :: rest) →
      ∃ text rest, Segment.attach c pieces = ⟨kind, text⟩ :: rest := by
    rintro c kind _ ⟨text, rest, rfl⟩
    exact ⟨c :: text, rest, rfl⟩
  fun_induction fieldPieces closing field body with
  | case1 => exact ⟨closing, [], rfl⟩
  | case2 c cs ih => exact attached (attached ih)
  | case3 cs ih => exact attached (attached ih)
  | case4 => exact ⟨_, _, rfl⟩
  | case5 c cs _ _ _ ih => exact attached ih
  | case6 => exact ⟨_, _, rfl⟩
  | case7 => exact ⟨_, _, rfl⟩
  | case8 d cs ih => exact attached ih
  | case9 d cs ih => exact attached ih
  | case10 d c cs _ _ _ ih => exact attached ih

/-- A text in front of the first piece is marked as that piece is. -/
theorem marksOf_foldr_attach (opening : List Char) (field : Option Nat) (body : List Char) :
    Segment.marksOf (opening.foldr Segment.attach (fieldPieces closing field body)) =
      opening.map (·, fieldKind field) ++ Segment.marksOf (fieldPieces closing field body) := by
  obtain ⟨text, rest, pieces⟩ := fieldPieces_cons closing field body
  rw [pieces, Segment.foldr_attach, Segment.marksOf_cons, Segment.marksOf_cons]
  simp [Segment.marks]

theorem marksOf_attach (c : Char) (field : Option Nat) (body : List Char) :
    Segment.marksOf (Segment.attach c (fieldPieces closing field body)) =
      (c, fieldKind field) :: Segment.marksOf (fieldPieces closing field body) :=
  marksOf_foldr_attach closing [c] field body

/-! How the pieces go on, one or two characters further. -/

/-- Two characters that are literal text together. -/
def IsEscape (c d : Char) : Prop :=
  c = '\\' ∨ c = '{' ∧ d = '{'

theorem fieldPieces_escape {c d : Char} (escape : IsEscape c d) (cs : List Char) :
    fieldPieces closing none (c :: d :: cs) =
      [c, d].foldr Segment.attach (fieldPieces closing none cs) := by
  rcases escape with rfl | ⟨rfl, rfl⟩
  · rw [fieldPieces]
    rfl
  · rfl

theorem fieldPieces_opens {cs : List Char} (single : Stops (· == '{') cs) :
    fieldPieces closing none ('{' :: cs) =
      ⟨.literal, ['{']⟩ :: fieldPieces closing (some 0) cs := by
  cases cs with
  | nil => rfl
  | cons c cs =>
      have other : c ≠ '{' := by simpa [stops_cons] using single
      simp [fieldPieces, other]

theorem fieldPieces_plain {c : Char} {cs : List Char} (noBrace : c ≠ '{')
    (noEscape : c = '\\' → cs = []) :
    fieldPieces closing none (c :: cs) = Segment.attach c (fieldPieces closing none cs) := by
  rw [fieldPieces.eq_def]
  split <;> simp_all

/-- Which of the three it is. -/
theorem escape_or_opens_or_plain (c : Char) (cs : List Char) :
    (∃ d ds, cs = d :: ds ∧ IsEscape c d) ∨ (c = '{' ∧ Stops (· == '{') cs) ∨
      (c ≠ '{' ∧ (c = '\\' → cs = [])) := by
  cases cs with
  | nil =>
      by_cases brace : c = '{'
      · exact Or.inr (Or.inl ⟨brace, stops_nil _⟩)
      · exact Or.inr (Or.inr ⟨brace, fun _ => rfl⟩)
  | cons d ds =>
      by_cases backslash : c = '\\'
      · exact Or.inl ⟨d, ds, rfl, Or.inl backslash⟩
      · by_cases brace : c = '{'
        · by_cases double : d = '{'
          · exact Or.inl ⟨d, ds, rfl, Or.inr ⟨brace, double⟩⟩
          · exact Or.inr (Or.inl ⟨brace, stops_cons.mpr (beq_eq_false_iff_ne.mpr double)⟩)
        · exact Or.inr (Or.inr ⟨brace, fun same => absurd same backslash⟩)

theorem fieldPieces_field {c : Char} (cs : List Char) (depth : Nat) (noOpen : c ≠ '{')
    (noClose : c ≠ '}') :
    fieldPieces closing (some depth) (c :: cs) =
      Segment.attach c (fieldPieces closing (some depth) cs) := by
  rw [fieldPieces.eq_def]
  split <;> simp_all

/-- In a field a character belongs to the piece it is in, unless it closes the field. -/
theorem fieldPieces_some_cons (c : Char) (depth : Nat) :
    (∃ depth', ∀ cs, fieldPieces closing (some depth) (c :: cs) =
      Segment.attach c (fieldPieces closing (some depth') cs)) ∨
    ∀ cs, fieldPieces closing (some depth) (c :: cs) =
      ⟨.code, []⟩ :: Segment.attach c (fieldPieces closing none cs) := by
  by_cases closes : c = '}'
  · subst closes
    cases depth with
    | zero => exact Or.inr fun cs => rfl
    | succ depth => exact Or.inl ⟨depth, fun cs => rfl⟩
  · by_cases opens : c = '{'
    · subst opens
      refine Or.inl ⟨depth + 1, fun cs => ?_⟩
      cases depth <;> rfl
    · exact Or.inl ⟨depth, fun cs => fieldPieces_field closing cs depth opens closes⟩

/-- Names and dots in a field belong to the piece they are in. -/
theorem fieldPieces_names {text : List Char} (names : ∀ c ∈ text, isNameChar c = true ∨ c = '.')
    (body : List Char) (depth : Nat) :
    fieldPieces closing (some depth) (text ++ body) =
      text.foldr Segment.attach (fieldPieces closing (some depth) body) := by
  induction text with
  | nil => rfl
  | cons c text ih =>
      have first := names c List.mem_cons_self
      rw [List.cons_append, fieldPieces_field closing _ _
        (ne_of_isNameChar_or_dot first (by decide) (by decide))
        (ne_of_isNameChar_or_dot first (by decide) (by decide)),
        ih fun d member => names d (List.mem_cons_of_mem _ member), List.foldr_cons]

/-- The body and what closes it, in marks. -/
theorem marksOf_fieldPieces (field : Option Nat) (body : List Char) :
    ∃ ms, Segment.marksOf (fieldPieces closing field body) = ms ++ literalMarks closing ∧
      ms.map Prod.fst = body := by
  have attached : ∀ (opening : List Char) {field : Option Nat} {cs : List Char},
      (∃ ms, Segment.marksOf (fieldPieces closing field cs) = ms ++ literalMarks closing ∧
        ms.map Prod.fst = cs) →
      ∃ ms, Segment.marksOf (opening.foldr Segment.attach (fieldPieces closing field cs)) =
        ms ++ literalMarks closing ∧ ms.map Prod.fst = opening ++ cs := by
    rintro opening field cs ⟨ms, marks, text⟩
    refine ⟨opening.map (·, fieldKind field) ++ ms, ?_, ?_⟩
    · rw [marksOf_foldr_attach, marks, List.append_assoc]
    · rw [List.map_append, text, List.map_map]
      exact congrArg (· ++ cs) (List.map_id opening)
  fun_induction fieldPieces closing field body with
  | case1 => exact ⟨[], by simp [Segment.marksOf, Segment.marks, literalMarks], rfl⟩
  | case2 c cs ih => exact attached ['\\', c] ih
  | case3 cs ih => exact attached ['{', '{'] ih
  | case4 cs _ ih =>
      obtain ⟨ms, marks, text⟩ := ih
      exact ⟨('{', .literal) :: ms, congrArg (('{', Segment.Kind.literal) :: ·) marks,
        congrArg ('{' :: ·) text⟩
  | case5 c cs _ _ _ ih => exact attached [c] ih
  | case6 => exact ⟨[], by simp [Segment.marksOf, Segment.marks, literalMarks], rfl⟩
  | case7 cs ih => exact attached ['}'] ih
  | case8 d cs ih => exact attached ['}'] ih
  | case9 d cs ih => exact attached ['{'] ih
  | case10 d c cs _ _ _ ih => exact attached [c] ih

end Pieces

/-- **Marks hold the text of a lexeme.** -/
theorem Lexeme.map_fst_marks (l : Lexeme) : l.marks.map Prod.fst = l.text := by
  cases l with
  | formatted opening body closing =>
      obtain ⟨ms, marks, text⟩ := marksOf_fieldPieces closing none body
      rw [Lexeme.marks, pieces, marksOf_foldr_attach, marks]
      simp [Lexeme.text, text, Function.comp_def]
  | _ => simp [Lexeme.marks, pieces, Segment.marksOf, Segment.marks, Lexeme.text, Function.comp_def]

/-! ### Bodies -/

/-- Name characters and dots are ordinary characters of a body, escaped or not. -/
theorem isBody_names (q : Quote) {text : List Char} (some : text ≠ [])
    (names : ∀ c ∈ text, isNameChar c = true ∨ c = '.') (escaped : Bool) (body : List Char) :
    isBody q.char escaped (text ++ body) = isBody q.char false body := by
  induction text generalizing escaped with
  | nil => exact absurd rfl some
  | cons c text ih =>
      have first := names c List.mem_cons_self
      have ordinary : isBody q.char escaped (c :: (text ++ body)) =
          isBody q.char false (text ++ body) := by
        have newline : c ≠ '\n' := ne_of_isNameChar_or_dot first (by decide) (by decide)
        have backslash : c ≠ '\\' := ne_of_isNameChar_or_dot first (by decide) (by decide)
        have quote : c ≠ q.char := by
          cases q with
          | single => exact ne_of_isNameChar_or_dot first (by decide) (by decide)
          | double => exact ne_of_isNameChar_or_dot first (by decide) (by decide)
        cases escaped <;> simp [isBody, newline, backslash, quote]
      rw [List.cons_append, ordinary]
      by_cases last : text = []
      · rw [last]
        rfl
      · exact ih last (fun d member => names d (List.mem_cons_of_mem _ member)) false

/-! ### Renamed bodies -/

/-- **Segments of one shape**: of one kind, and of one text where they are literal. -/
def SameShape (s s' : Segment) : Prop :=
  s'.kind = s.kind ∧ (s.kind = .literal → s'.text = s.text)

theorem sameShape_code (text text' : List Char) :
    SameShape ⟨.code, text⟩ ⟨.code, text'⟩ := by
  refine ⟨rfl, fun literal => ?_⟩
  cases literal

/-- Pieces of one shape that are both empty or both not. -/
def PieceAlike (s s' : Segment) : Prop :=
  SameShape s s' ∧ (s'.text = [] ↔ s.text = [])

instance : Std.Refl PieceAlike where
  refl _ := ⟨⟨rfl, fun _ => rfl⟩, Iff.rfl⟩

/-- A character in front keeps pieces alike. -/
theorem attach_alike (c : Char) {pieces pieces' : List Segment}
    (alike : List.Forall₂ PieceAlike pieces pieces') :
    List.Forall₂ PieceAlike (Segment.attach c pieces) (Segment.attach c pieces') := by
  cases alike with
  | nil => exact .nil
  | cons first rest =>
      obtain ⟨⟨kind, text⟩, -⟩ := first
      refine .cons ⟨⟨kind, fun literal => ?_⟩, by simp⟩ rest
      exact congrArg (c :: ·) (text literal)

/-- Code in front of code keeps pieces alike. -/
theorem foldr_attach_alike (closing : List Char) {depth : Nat} {text text' body body' : List Char}
    (some : text ≠ []) (some' : text' ≠ [])
    (alike : List.Forall₂ PieceAlike (fieldPieces closing (.some depth) body)
      (fieldPieces closing (.some depth) body')) :
    List.Forall₂ PieceAlike (text.foldr Segment.attach (fieldPieces closing (.some depth) body))
      (text'.foldr Segment.attach (fieldPieces closing (.some depth) body')) := by
  obtain ⟨code, rest, pieces⟩ := fieldPieces_cons closing (.some depth) body
  obtain ⟨code', rest', pieces'⟩ := fieldPieces_cons closing (.some depth) body'
  rw [pieces, pieces', List.forall₂_cons] at alike
  rw [pieces, pieces', Segment.foldr_attach, Segment.foldr_attach]
  exact .cons ⟨sameShape_code _ _, by simp [some, some']⟩ alike.2

/-- **The edits keep the pieces of a body alike**, wherever in the body they start. -/
def BodyAlike (closing : List Char) (edits : List Edit) : Prop :=
  ∀ field, Edit.marksOf edits ++ literalMarks closing =
      Segment.marksOf (fieldPieces closing field (Edit.oldText edits)) →
    List.Forall₂ PieceAlike (fieldPieces closing field (Edit.oldText edits))
      (fieldPieces closing field (Edit.newText edits))

section Bodies

variable {closing : List Char} {later : List Edit}

/-- A character of a field is copied. -/
theorem BodyAlike.copy (alike : BodyAlike closing later) (mark : Mark) (depth : Nat)
    (marks : Edit.marksOf (.copy mark :: later) ++ literalMarks closing =
      Segment.marksOf (fieldPieces closing (some depth) (mark.1 :: Edit.oldText later))) :
    List.Forall₂ PieceAlike (fieldPieces closing (some depth) (mark.1 :: Edit.oldText later))
      (fieldPieces closing (some depth) (mark.1 :: Edit.newText later)) := by
  rcases fieldPieces_some_cons closing mark.1 depth with ⟨depth', step⟩ | step
  · rw [step, marksOf_attach] at marks
    rw [step, step]
    exact attach_alike _ (alike _ (List.cons.inj marks).2)
  · rw [step, Segment.marksOf_cons, marksOf_attach] at marks
    rw [step, step]
    exact .cons (refl _) (attach_alike _ (alike _ (List.cons.inj marks).2))

/-- A key in a field is swapped. -/
theorem BodyAlike.swap (alike : BodyAlike closing later) {rule : Renaming.Rule}
    (lexical : rule.Lexical) (depth : Nat)
    (marks : Edit.marksOf (.swap rule :: later) ++ literalMarks closing =
      Segment.marksOf (fieldPieces closing (some depth) (rule.key ++ Edit.oldText later))) :
    List.Forall₂ PieceAlike (fieldPieces closing (some depth) (rule.key ++ Edit.oldText later))
      (fieldPieces closing (some depth) (rule.replacement ++ Edit.newText later)) := by
  rw [fieldPieces_names closing lexical.dotted.chars, marksOf_foldr_attach, Edit.marksOf_cons,
    List.append_assoc] at marks
  rw [fieldPieces_names closing lexical.dotted.chars,
    fieldPieces_names closing lexical.replacement_chars]
  exact foldr_attach_alike closing lexical.key_ne_nil lexical.replacement_ne_nil
    (alike _ (List.append_cancel_left marks))

end Bodies

section Edits

variable {r : Renaming} (lexical : ∀ rule ∈ r.rules, rule.Lexical)

include lexical

/-- **A body stays a body.** -/
theorem isBody_newText (q : Quote) {before : Option Char} {edits : List Edit}
    (placed : Edit.Placed r before edits) (escaped : Bool) :
    isBody q.char escaped (Edit.newText edits) = isBody q.char escaped (Edit.oldText edits) := by
  induction edits generalizing before escaped with
  | nil => rfl
  | cons edit later ih =>
      cases edit with
      | copy mark =>
          have rest := ih placed
          change isBody q.char escaped (mark.1 :: Edit.newText later) =
            isBody q.char escaped (mark.1 :: Edit.oldText later)
          cases escaped <;> simp [isBody, rest]
      | swap rule =>
          have rest := ih placed.2.2.2
          have holds := lexical rule placed.1
          rw [Edit.oldText_swap, Edit.newText_swap,
            isBody_names q holds.key_ne_nil holds.dotted.chars,
            isBody_names q holds.replacement_ne_nil holds.replacement_chars, rest]

/-- Literal text at the start of a body is copied, and edits go on behind it. -/
theorem exists_behind_literal {closing : List Char} {before : Option Char} {edits : List Edit}
    (placed : Edit.Placed r before edits) (text : List Char) {cs : List Char} {ms : List Mark}
    (old : Edit.oldText edits = text ++ cs) (some : text ≠ [])
    (marks : Edit.marksOf edits ++ literalMarks closing = literalMarks text ++ ms) :
    ∃ later before', Edit.Placed r before' later ∧ later.length < edits.length ∧
      Edit.oldText later = cs ∧ Edit.newText edits = text ++ Edit.newText later ∧
      Edit.marksOf later ++ literalMarks closing = ms := by
  obtain ⟨rest, cut⟩ : literalMarks text <+: Edit.marksOf edits := by
    refine List.prefix_of_prefix_length_le ⟨ms, rfl⟩ ⟨literalMarks closing, marks⟩ ?_
    have width := congrArg List.length old
    simp only [Edit.oldText, List.length_map, List.length_append] at width
    simp [literalMarks, width]
  obtain ⟨later, before', rfl, behind, placed⟩ :=
    Edit.split_copied lexical placed (stuck_literalMarks before text) cut.symm
  refine ⟨later, before', placed, ?_, ?_, ?_, ?_⟩
  · simpa [Edit.copies, literalMarks] using List.length_pos_iff.mpr some
  · rw [Edit.oldText_append, Edit.oldText, Edit.marksOf_copies, map_fst_literalMarks] at old
    exact List.append_cancel_left old
  · rw [Edit.newText_append, Edit.newText_copies, map_fst_literalMarks]
  · rw [← cut, List.append_assoc] at marks
    rw [behind, List.append_cancel_left marks]

/-- **A renamed body has the same pieces**: of the same kinds, with the same literal text,
and code where there was code. -/
theorem fieldPieces_alike (closing : List Char) {before : Option Char} {edits : List Edit}
    (placed : Edit.Placed r before edits) : BodyAlike closing edits := by
  -- two characters may be read at once, so the induction is on the number of edits
  induction n : edits.length using Nat.strong_induction_on generalizing edits before with
  | _ n ih =>
      subst n
      have shorter : ∀ {later : List Edit} {before' : Option Char}, Edit.Placed r before' later →
          later.length < edits.length → BodyAlike closing later :=
        fun placed fewer => ih _ fewer placed rfl
      intro field marks
      cases field with
      | some depth =>
          cases edits with
          | nil => exact List.forall₂_refl _
          | cons edit later =>
              cases edit with
              | copy mark =>
                  have alike : BodyAlike closing later := shorter placed (Nat.lt_succ_self _)
                  exact alike.copy mark depth marks
              | swap rule =>
                  have alike : BodyAlike closing later := shorter placed.2.2.2 (Nat.lt_succ_self _)
                  rw [Edit.oldText_swap] at marks
                  rw [Edit.oldText_swap, Edit.newText_swap]
                  exact alike.swap (lexical rule placed.1) depth marks
      | none =>
          cases old : Edit.oldText edits with
          | nil =>
              rw [(Edit.newText_eq_nil_iff lexical placed).mpr old]
              exact List.forall₂_refl _
          | cons c cs =>
              rw [old] at marks
              rcases escape_or_opens_or_plain c cs with
                ⟨d, cs, rfl, escape⟩ | ⟨rfl, single⟩ | ⟨noBrace, noEscape⟩
              · rw [fieldPieces_escape closing escape, marksOf_foldr_attach] at marks
                obtain ⟨later, before', placed, fewer, rfl, new, rest⟩ :=
                  exists_behind_literal lexical placed [c, d] old (by simp) marks
                rw [new, fieldPieces_escape closing escape, List.cons_append, List.cons_append,
                  List.nil_append, fieldPieces_escape closing escape]
                exact attach_alike c (attach_alike d (shorter placed fewer _ rest))
              · rw [fieldPieces_opens closing single, Segment.marksOf_cons] at marks
                obtain ⟨later, before', placed, fewer, rfl, new, rest⟩ :=
                  exists_behind_literal lexical placed ['{'] old (by simp) marks
                have single' : Stops (· == '{') (Edit.newText later) := by
                  refine (Edit.startAlike lexical placed).stops (fun c d start start' => ?_) single
                  rw [beq_eq_false_iff_ne.mpr (ne_of_isNameStart start (by decide)),
                    beq_eq_false_iff_ne.mpr (ne_of_isNameStart start' (by decide))]
                rw [new, fieldPieces_opens closing single, List.singleton_append,
                  fieldPieces_opens closing single']
                exact .cons (refl _) (shorter placed fewer _ rest)
              · rw [fieldPieces_plain closing noBrace noEscape, marksOf_attach] at marks
                obtain ⟨later, before', placed, fewer, rfl, new, rest⟩ :=
                  exists_behind_literal lexical placed [c] old (by simp) marks
                have noEscape' : c = '\\' → Edit.newText later = [] :=
                  fun backslash => (Edit.newText_eq_nil_iff lexical placed).mpr (noEscape backslash)
                rw [new, fieldPieces_plain closing noBrace noEscape, List.singleton_append,
                  fieldPieces_plain closing noBrace noEscape']
                exact attach_alike c (shorter placed fewer _ rest)

end Edits

end Amalgam
