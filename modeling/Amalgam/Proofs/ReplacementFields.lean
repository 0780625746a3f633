import Amalgam.Proofs.FormattedStrings

/-!
# Replacement fields

Which characters of a formatted string's body are text of a replacement field.  A field is
opened by a brace that is not doubled, and it goes on as long as no brace is closed that was
not opened in it; where no brace closes it, it reaches to the end of the body.
`OutsideFields` is the grammar of what may stand in front of a field: plain characters,
doubled opening braces and whole fields.  A backslash may or may not take part: with
`escapes` it makes literal text of itself and the character after it.

The pieces of a body are cut by a scan that carries the number of open braces.  The scan
marks a character as code exactly where the grammar, read with escapes, has it in a field
(`mark_eq_code_iff`).

## Main statements

* `braceDepth`, `OutsideFields`, `IsFieldChar` — the grammar
* `marksOf_fieldPieces_some`, `OutsideFields.marksOf_fieldPieces` — how far the scan comes
* `mark_eq_code_iff`
-/

namespace Amalgam

/-! ### The grammar -/

/-- How many braces are open after a text when `depth` are open before it; `none` if the text
closes a brace when none is open. -/
def braceDepth : Nat → List Char → Option Nat
  | depth, [] => some depth
  | depth, c :: cs =>
    if c = '{' then braceDepth (depth + 1) cs
    else if c = '}' then
      if depth = 0 then none else braceDepth (depth - 1) cs
    else braceDepth depth cs

theorem braceDepth_append (depth : Nat) (first second : List Char) :
    braceDepth depth (first ++ second) =
      (braceDepth depth first).bind (braceDepth · second) := by
  induction first generalizing depth with
  | nil => rfl
  | cons c cs ih =>
      simp only [List.cons_append, braceDepth]
      split_ifs
      · exact ih _
      · rfl
      · exact ih _
      · exact ih _

/-- Braces that were open before stay open. -/
theorem braceDepth_add {depth last : Nat} {text : List Char} (more : Nat)
    (reached : braceDepth depth text = some last) :
    braceDepth (depth + more) text = some (last + more) := by
  induction text generalizing depth with
  | nil =>
      cases reached
      rfl
  | cons c cs ih =>
      simp only [braceDepth] at reached ⊢
      split_ifs at reached ⊢ with opens closes
      · rw [Nat.add_right_comm]
        exact ih reached
      · omega
      · have lower : depth + more - 1 = depth - 1 + more := by omega
        rw [lower]
        exact ih reached
      · exact ih reached

/-- Braces that stay open stay so at each earlier place. -/
theorem braceDepth_isSome_of_append {depth : Nat} {first second : List Char}
    (isOpen : (braceDepth depth (first ++ second)).isSome = true) :
    (braceDepth depth first).isSome = true := by
  rw [braceDepth_append] at isOpen
  cases reached : braceDepth depth first with
  | none =>
      rw [reached] at isOpen
      exact isOpen
  | some depth' => rfl

/-- What comes after the first character does not matter to what a text starts with. -/
theorem stops_append_cons {p : Char → Bool} {text : List Char} {c : Char} {rest : List Char} :
    Stops p (text ++ c :: rest) ↔ Stops p (text ++ [c]) := by
  cases text with
  | nil => rw [List.nil_append, List.nil_append, stops_cons, stops_cons]
  | cons d ds => rw [List.cons_append, List.cons_append, stops_cons, stops_cons]

/-- **No field is open after the text**, which starts where none is.  An expression between
braces does not start with a brace, since that would be a doubled one. -/
inductive OutsideFields (escapes : Bool) : List Char → Prop where
  | nil : OutsideFields escapes []
  | char {c : Char} {rest : List Char} (noBrace : c ≠ '{') (noEscape : escapes = true → c ≠ '\\')
      (later : OutsideFields escapes rest) : OutsideFields escapes (c :: rest)
  | escape {rest : List Char} (active : escapes = true) (c : Char)
      (later : OutsideFields escapes rest) : OutsideFields escapes ('\\' :: c :: rest)
  | doubled {rest : List Char} (later : OutsideFields escapes rest) :
      OutsideFields escapes ('{' :: '{' :: rest)
  | field {expr rest : List Char} (matched : braceDepth 0 expr = some 0)
      (single : Stops (· == '{') expr) (later : OutsideFields escapes rest) :
      OutsideFields escapes ('{' :: (expr ++ '}' :: rest))

/-- **The character `c` after the text `before` is text of a replacement field**, where
`before` starts a body. -/
def IsFieldChar (escapes : Bool) (before : List Char) (c : Char) : Prop :=
  ∃ outer inner, before = outer ++ '{' :: inner ∧ OutsideFields escapes outer ∧
    (braceDepth 0 (inner ++ [c])).isSome = true ∧ Stops (· == '{') (inner ++ [c])

section Grammar

variable {escapes : Bool}

theorem IsEscape.outsideFields {c d : Char} (escape : IsEscape c d) :
    OutsideFields true [c, d] := by
  rcases escape with rfl | ⟨rfl, rfl⟩
  · exact .escape rfl d .nil
  · exact .doubled .nil

theorem OutsideFields.append {first second : List Char} (outside : OutsideFields escapes first)
    (outside' : OutsideFields escapes second) : OutsideFields escapes (first ++ second) := by
  induction outside with
  | nil => exact outside'
  | char noBrace noEscape _ ih => exact .char noBrace noEscape ih
  | escape active c _ ih => exact .escape active c ih
  | doubled _ ih => exact .doubled ih
  | field matched single _ ih =>
      rw [List.cons_append, List.append_assoc, List.cons_append]
      exact .field matched single ih

theorem IsFieldChar.append {first before : List Char} {c : Char}
    (outside : OutsideFields escapes first) (field : IsFieldChar escapes before c) :
    IsFieldChar escapes (first ++ before) c := by
  obtain ⟨outer, inner, rfl, outside', isOpen, single⟩ := field
  exact ⟨first ++ outer, inner, (List.append_assoc _ _ _).symm, outside.append outside', isOpen,
    single⟩

/-- What follows a character of a field is in the field too, as long as braces stay open. -/
theorem IsFieldChar.extend {before more : List Char} {c d : Char}
    (field : IsFieldChar escapes before c)
    (isOpen : (braceDepth 0 (c :: more ++ [d])).isSome = true) :
    IsFieldChar escapes (before ++ c :: more) d := by
  obtain ⟨outer, inner, rfl, outside, reached, single⟩ := field
  refine ⟨outer, inner ++ c :: more, by simp, outside, ?_, ?_⟩
  · obtain ⟨depth, inside⟩ := Option.isSome_iff_exists.mp (braceDepth_isSome_of_append reached)
    obtain ⟨last, rest⟩ := Option.isSome_iff_exists.mp isOpen
    have deeper := braceDepth_add depth rest
    rw [Nat.zero_add] at deeper
    rw [List.append_assoc, braceDepth_append, inside, Option.bind_some, deeper]
    rfl
  · rw [List.append_assoc, List.cons_append]
    exact stops_append_cons.mpr single

/-- The expression behind an opening brace is text of a field. -/
theorem OutsideFields.isFieldChar {before expr rest : List Char} {c : Char}
    (outside : OutsideFields escapes before)
    (isOpen : (braceDepth 0 (expr ++ c :: rest)).isSome = true)
    (single : Stops (· == '{') (expr ++ c :: rest)) :
    IsFieldChar escapes (before ++ '{' :: expr) c := by
  refine ⟨before, expr, rfl, outside, ?_, stops_append_cons.mp single⟩
  rw [List.append_cons] at isOpen
  exact braceDepth_isSome_of_append isOpen

/-- Where no backslash is in front of a brace, backslashes do not matter. -/
theorem OutsideFields.escaped {before : List Char} (outside : OutsideFields false before)
    (apart : ¬ ['\\', '{'] <:+: before ++ ['{']) : OutsideFields true before := by
  -- an escape takes two characters, so the induction is on the length
  induction n : before.length using Nat.strong_induction_on generalizing before with
  | _ n ih =>
      subst n
      have onward : ∀ (front : List Char) {rest : List Char}, before = front ++ rest → front ≠ [] →
          OutsideFields false rest → OutsideFields true rest := by
        rintro front rest rfl some later
        refine ih _ ?_ later (fun inside => apart ?_) rfl
        · have positive := List.length_pos_iff.mpr some
          rw [List.length_append]
          omega
        · rw [List.append_assoc]
          exact inside.trans (List.suffix_append _ _).isInfix
      cases outside with
      | nil => exact .nil
      | @char c rest noBrace _ later =>
          by_cases backslash : c = '\\'
          · subst backslash
            cases later with
            | nil => exact absurd List.infix_rfl apart
            | @char d rest _ _ later =>
                exact .escape rfl d (onward ['\\', d] rfl (by simp) later)
            | escape active => cases active
            | doubled => exact absurd ⟨[], _, rfl⟩ apart
            | field => exact absurd ⟨[], _, rfl⟩ apart
          · exact .char noBrace (fun _ => backslash)
              (onward [c] rfl (by simp) later)
      | escape active => cases active
      | doubled later => exact .doubled (onward ['{', '{'] rfl (by simp) later)
      | @field expr rest matched single later =>
          refine .field matched single (onward ('{' :: (expr ++ ['}'])) ?_ (by simp) later)
          simp

end Grammar

/-! ### The scan -/

section Scan

variable (closing : List Char)

/-- **In a field, the scan counts braces.** -/
theorem marksOf_fieldPieces_some {depth last : Nat} {text : List Char}
    (reached : braceDepth depth text = some last) (rest : List Char) :
    Segment.marksOf (fieldPieces closing (some depth) (text ++ rest)) =
      codeMarks text ++ Segment.marksOf (fieldPieces closing (some last) rest) := by
  induction text generalizing depth with
  | nil =>
      cases reached
      rfl
  | cons c cs ih =>
      have step : ∀ {depth'}, braceDepth depth' cs = some last →
          fieldPieces closing (some depth) (c :: (cs ++ rest)) =
            Segment.attach c (fieldPieces closing (some depth') (cs ++ rest)) →
          Segment.marksOf (fieldPieces closing (some depth) (c :: (cs ++ rest))) =
            codeMarks (c :: cs) ++ Segment.marksOf (fieldPieces closing (some last) rest) := by
        intro depth' later attached
        rw [attached, marksOf_attach, ih later]
        rfl
      simp only [braceDepth] at reached
      rw [List.cons_append]
      split_ifs at reached with opens closes bottom
      · subst opens
        refine step reached ?_
        cases depth <;> rfl
      · subst closes
        refine step reached ?_
        cases depth with
        | zero => exact absurd rfl bottom
        | succ depth => rfl
      · exact step reached (fieldPieces_field closing _ _ opens closes)

/-- **Outside fields, the scan leaves no field open.** -/
theorem OutsideFields.marksOf_fieldPieces {before : List Char}
    (outside : OutsideFields true before) :
    ∃ ms : List Mark, ms.length = before.length ∧ ∀ rest,
      Segment.marksOf (fieldPieces closing none (before ++ rest)) =
        ms ++ Segment.marksOf (fieldPieces closing none rest) := by
  induction outside with
  | nil => exact ⟨[], rfl, fun rest => rfl⟩
  | @char c later noBrace noEscape _ ih =>
      obtain ⟨ms, length, marks⟩ := ih
      refine ⟨(c, .literal) :: ms, congrArg (· + 1) length, fun rest => ?_⟩
      rw [List.cons_append,
        fieldPieces_plain closing noBrace fun same => absurd same (noEscape rfl),
        marksOf_attach, marks]
      rfl
  | @escape later _ c _ ih =>
      obtain ⟨ms, length, marks⟩ := ih
      refine ⟨literalMarks ['\\', c] ++ ms, congrArg (· + 2) length, fun rest => ?_⟩
      rw [List.cons_append, List.cons_append, fieldPieces_escape closing (Or.inl rfl),
        marksOf_foldr_attach, marks, List.append_assoc]
      rfl
  | @doubled later _ ih =>
      obtain ⟨ms, length, marks⟩ := ih
      refine ⟨literalMarks ['{', '{'] ++ ms, congrArg (· + 2) length, fun rest => ?_⟩
      rw [List.cons_append, List.cons_append, fieldPieces_escape closing (Or.inr ⟨rfl, rfl⟩),
        marksOf_foldr_attach, marks, List.append_assoc]
      rfl
  | @field expr later matched single _ ih =>
      obtain ⟨ms, length, marks⟩ := ih
      refine ⟨('{', .literal) :: (codeMarks expr ++ ('}', .literal) :: ms), ?_, fun rest => ?_⟩
      · simp [codeMarks, length]
      · have opens : Stops (· == '{') (expr ++ '}' :: (later ++ rest)) := by
          cases expr with
          | nil => exact stops_cons.mpr (by decide)
          | cons c cs =>
              rw [stops_cons] at single
              exact stops_cons.mpr single
        rw [List.cons_append, List.append_assoc, List.cons_append, fieldPieces_opens closing opens,
          Segment.marksOf_cons, marksOf_fieldPieces_some closing matched]
        change _ ++ (codeMarks expr ++
          Segment.marksOf (Segment.attach '}' (fieldPieces closing none (later ++ rest)))) = _
        rw [marksOf_attach, marks]
        simp [Segment.marks, fieldKind]

/-- In a field a character stays in it, or it is the brace that closes the field. -/
theorem fieldPieces_some_step (c : Char) (depth : Nat) :
    (∃ depth', (∀ cs, braceDepth depth (c :: cs) = braceDepth depth' cs) ∧
      ∀ cs, fieldPieces closing (some depth) (c :: cs) =
        Segment.attach c (fieldPieces closing (some depth') cs)) ∨
    (c = '}' ∧ depth = 0) := by
  by_cases opens : c = '{'
  · subst opens
    refine Or.inl ⟨depth + 1, fun cs => rfl, fun cs => ?_⟩
    cases depth <;> rfl
  · by_cases closes : c = '}'
    · subst closes
      cases depth with
      | zero => exact Or.inr ⟨rfl, rfl⟩
      | succ depth => exact Or.inl ⟨depth, fun cs => rfl, fun cs => rfl⟩
    · refine Or.inl ⟨depth, fun cs => ?_, fun cs => fieldPieces_field closing cs depth opens closes⟩
      rw [braceDepth, if_neg opens, if_neg closes]

/-- What the scan has marked as code, read back: outside fields, a character of a field; in a
field, a character of that field or of a later one. -/
theorem isFieldChar_of_mark {before after : List Char} {c : Char} :
    ((Segment.marksOf (fieldPieces closing none (before ++ c :: after)))[before.length]? =
        some (c, .code) → IsFieldChar true before c) ∧
    ∀ depth, (Segment.marksOf (fieldPieces closing (some depth)
        (before ++ c :: after)))[before.length]? = some (c, .code) →
      (braceDepth depth (before ++ [c])).isSome = true ∨
      ∃ expr rest, before = expr ++ '}' :: rest ∧ braceDepth depth expr = some 0 ∧
        IsFieldChar true rest c := by
  -- an escape takes two characters, so the induction is on the length
  induction n : before.length using Nat.strong_induction_on generalizing before with
  | _ n ih =>
      subst n
      constructor
      · intro mark
        cases before with
        | nil =>
            rw [List.nil_append] at mark
            rcases escape_or_opens_or_plain c after with
              ⟨d, ds, rfl, escape⟩ | ⟨rfl, single⟩ | ⟨noBrace, noEscape⟩
            · rw [fieldPieces_escape closing escape, marksOf_foldr_attach] at mark
              cases mark
            · rw [fieldPieces_opens closing single] at mark
              cases mark
            · rw [fieldPieces_plain closing noBrace noEscape, marksOf_attach] at mark
              cases mark
        | cons first before =>
            rw [List.cons_append, List.length_cons] at mark
            rcases escape_or_opens_or_plain first (before ++ c :: after) with
              ⟨d, ds, text, escape⟩ | ⟨rfl, single⟩ | ⟨noBrace, noEscape⟩
            · rw [text, fieldPieces_escape closing escape, marksOf_foldr_attach] at mark
              cases before with
              | nil => cases mark
              | cons second before =>
                  obtain ⟨rfl, rfl⟩ := List.cons.inj text
                  have field := (ih _ (by simp only [List.length_cons]; omega) rfl).1 mark
                  exact field.append (IsEscape.outsideFields escape)
            · rw [fieldPieces_opens closing single] at mark
              rcases (ih _ (Nat.lt_succ_self _) rfl).2 0 mark with
                inside | ⟨expr, rest, rfl, matched, field⟩
              · exact ⟨[], before, rfl, .nil, inside, stops_append_cons.mp single⟩
              · have outside : OutsideFields true ('{' :: (expr ++ '}' :: [])) := by
                  refine .field matched ?_ .nil
                  rw [List.append_assoc] at single
                  exact single.of_append
                have whole : '{' :: (expr ++ '}' :: rest) = '{' :: (expr ++ '}' :: []) ++ rest := by
                  simp
                rw [whole]
                exact field.append outside
            · rw [fieldPieces_plain closing noBrace noEscape, marksOf_attach] at mark
              have field := (ih _ (Nat.lt_succ_self _) rfl).1 mark
              have outside : OutsideFields true [first] := by
                refine .char noBrace (fun _ backslash => ?_) .nil
                exact List.append_ne_nil_of_right_ne_nil _ (by simp) (noEscape backslash)
              exact field.append outside
      · intro depth mark
        cases before with
        | nil =>
            rcases fieldPieces_some_step closing c depth with ⟨depth', counted, -⟩ | ⟨rfl, rfl⟩
            · exact Or.inl (by rw [List.nil_append, counted]; rfl)
            · -- the brace that closes a field is literal text
              change (Segment.marksOf (Segment.attach '}' (fieldPieces closing none after)))[0]? = _
                at mark
              rw [marksOf_attach] at mark
              cases mark
        | cons first before =>
            rw [List.cons_append, List.length_cons] at mark
            rcases fieldPieces_some_step closing first depth with
              ⟨depth', counted, attached⟩ | ⟨rfl, rfl⟩
            · rw [attached, marksOf_attach] at mark
              rcases (ih _ (Nat.lt_succ_self _) rfl).2 depth' mark with
                inside | ⟨expr, rest, rfl, matched, field⟩
              · exact Or.inl (by rw [List.cons_append, counted]; exact inside)
              · exact Or.inr ⟨first :: expr, rest, rfl, (counted expr).trans matched, field⟩
            · change (Segment.marksOf (Segment.attach '}'
                (fieldPieces closing none (before ++ c :: after))))[before.length + 1]? = _ at mark
              rw [marksOf_attach] at mark
              have field := (ih _ (Nat.lt_succ_self _) rfl).1 mark
              exact Or.inr ⟨[], before, rfl, rfl, field⟩

/-- **The scan marks as code exactly the text of replacement fields.** -/
theorem mark_eq_code_iff {before after : List Char} {c : Char} :
    (Segment.marksOf (fieldPieces closing none (before ++ c :: after)))[before.length]? =
      some (c, .code) ↔ IsFieldChar true before c := by
  refine ⟨(isFieldChar_of_mark closing).1, ?_⟩
  rintro ⟨outer, inner, rfl, outside, isOpen, single⟩
  obtain ⟨ms, length, marks⟩ := outside.marksOf_fieldPieces closing
  obtain ⟨last, reached⟩ := Option.isSome_iff_exists.mp isOpen
  have opens : Stops (· == '{') (inner ++ c :: after) := stops_append_cons.mpr single
  have whole : outer ++ '{' :: inner ++ c :: after = outer ++ '{' :: (inner ++ c :: after) := by
    simp
  rw [whole, marks, fieldPieces_opens closing opens, List.append_cons inner c after,
    Segment.marksOf_cons, marksOf_fieldPieces_some closing reached,
    List.getElem?_append_right (by simp [length])]
  simp [length, Segment.marks, codeMarks]

end Scan

end Amalgam
