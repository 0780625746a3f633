import Amalgam.Proofs.LexicalReading

/-!
# String literals of a line

A string literal that is closed on its line has letters, a quote that is written once or
three times, a body and the quote again.  A body ends at the first quote that no backslash
escapes: `isBody` says so of a body on one line, and `isLongBody` of one between triple
quotes.

A literal stands in a line where the text before it is made of lexemes that fit there, the
last of them in front of the literal.  That is a matter of the grammar; the lexer comes in
with `StringLiteral.StandsIn.lexemes_eq`, by which the literal is read where it stands.

## Main statements

* `StringLiteral`, `StringLiteral.StandsIn`
* `closeTriple_append` — a long body is read up to its quotes
* `StringLiteral.StandsIn.lexemes_eq`
* `StringLiteral.exists_of_formatted` — a formatted string that is read is a literal
-/

namespace Amalgam

/-! ### Long bodies -/

/-- Is the text the body of a triple-quoted string?  No triple quote starts in it, not even
one that ends in the quotes behind it, but after a backslash. -/
def isLongBody (q : Char) : List Char → Bool
  | [] => true
  | '\\' :: _ :: cs => isLongBody q cs
  | c :: cs => c != '\\' && !([q, q, q].isPrefixOf (c :: (cs ++ [q, q, q]))) && isLongBody q cs

/-- **A long body is read up to its quotes.** -/
theorem closeTriple_append {q : Char} (plain : q ≠ '\\') {body : List Char}
    (inside : isLongBody q body = true) (rest : List Char) :
    closeTriple q (body ++ q :: q :: q :: rest) = some (body ++ [q, q, q], rest) := by
  fun_induction isLongBody q body with
  | case1 => simp [closeTriple, plain]
  | case2 c cs ih => simp [closeTriple, ih inside]
  | case3 c cs notEscape ih =>
      simp only [Bool.and_eq_true, bne_iff_ne, Bool.not_eq_true'] at inside
      obtain ⟨⟨backslash, notQuotes⟩, later⟩ := inside
      -- the three characters that are looked at lie in the body and its quotes
      have goesOn : ¬ [q, q, q].isPrefixOf (c :: (cs ++ q :: q :: q :: rest)) = true := by
        intro quotes
        refine Bool.eq_false_iff.mp notQuotes (List.isPrefixOf_iff_prefix.mpr ?_)
        have within : c :: (cs ++ [q, q, q]) <+: c :: (cs ++ q :: q :: q :: rest) :=
          ⟨rest, by simp⟩
        exact List.prefix_of_prefix_length_le (List.isPrefixOf_iff_prefix.mp quotes) within
          (by simp)
      simp [closeTriple, backslash, goesOn, ih later]

/-! ### Literals -/

/-- **A string literal** that is closed on its line. -/
structure StringLiteral where
  letters : List Char
  quote : Quote
  /-- The quotes are triple ones. -/
  long : Bool
  body : List Char
  isPrefix : IsStringPrefix letters
  isBody' : (if long then isLongBody quote.char body else isBody quote.char false body) = true

namespace StringLiteral

/-- The quotes in front of the body and behind it. -/
def quotes (lit : StringLiteral) : List Char :=
  if lit.long then [lit.quote.char, lit.quote.char, lit.quote.char] else [lit.quote.char]

/-- What stands in front of the body. -/
def opening (lit : StringLiteral) : List Char :=
  lit.letters ++ lit.quotes

/-- The text of a literal. -/
def text (lit : StringLiteral) : List Char :=
  lit.opening ++ (lit.body ++ lit.quotes)

/-- Is it a formatted string? -/
def isFormatted (lit : StringLiteral) : Bool :=
  isFormattedPrefix lit.letters

/-- The lexeme that a literal is. -/
def lexeme (lit : StringLiteral) : Lexeme :=
  if lit.isFormatted && !lit.long then .formatted lit.opening lit.body lit.quotes
  else .literal lit.text

theorem text_lexeme (lit : StringLiteral) : lit.lexeme.text = lit.text := by
  unfold lexeme
  split
  · rw [Lexeme.text, List.append_assoc, text]
  · rfl

/-- A literal fits in front of a text that does not make a triple quote of an empty string. -/
theorem lexeme_fits (lit : StringLiteral) {rest : List Char}
    (single : lit.long = false → lit.body = [] → Stops (· == lit.quote.char) rest) :
    lit.lexeme.Fits rest := by
  obtain ⟨letters, quote, long, body, isPrefix, isBody'⟩ := lit
  cases long with
  | true =>
      have plain : quote.char ≠ '\\' := by
        rcases quote.char_cases with same | same <;> rw [same] <;> decide
      have fits : Lexeme.Fits (.literal (letters ++ [quote.char] ++ [quote.char, quote.char] ++
          (body ++ [quote.char, quote.char, quote.char]))) rest := by
        refine .triple isPrefix fun rest' => ?_
        rw [List.append_assoc]
        exact closeTriple_append plain isBody' rest'
      simpa [lexeme, text, opening, quotes] using fits
  | false =>
      cases formatted : isFormattedPrefix letters with
      | true =>
          have fits := Lexeme.Fits.formatted (q := quote) isPrefix formatted isBody' (single rfl)
          simpa [lexeme, isFormatted, formatted, opening, quotes] using fits
      | false =>
          have fits := Lexeme.Fits.string (q := quote) isPrefix formatted isBody' (single rfl)
          simpa [lexeme, isFormatted, formatted, text, opening, quotes] using fits

/-- **A formatted string that fits is a literal.** -/
theorem exists_of_formatted {opening body closing rest : List Char}
    (fits : (Lexeme.formatted opening body closing).Fits rest) :
    ∃ lit : StringLiteral, lit.isFormatted = true ∧ lit.long = false ∧ lit.opening = opening ∧
      lit.body = body ∧ lit.quotes = closing := by
  cases fits with
  | @formatted letters _ _ q isPrefix formatted isBody' _ =>
      exact ⟨⟨letters, q, false, body, isPrefix, isBody'⟩, formatted, rfl, rfl, rfl, rfl⟩

end StringLiteral

/-! ### Where a literal stands -/

/-- **Each lexeme fits** in front of the later ones and `rest`. -/
inductive LexedUpTo (rest : List Char) : List Lexeme → Prop where
  | nil : LexedUpTo rest []
  | cons {l : Lexeme} {ls : List Lexeme} (fits : l.Fits (Lexeme.textOf ls ++ rest))
      (later : LexedUpTo rest ls) : LexedUpTo rest (l :: ls)

/-- What fits is read, and then the rest is. -/
theorem lexemes_of_lexedUpTo {rest : List Char} {ls : List Lexeme} (upTo : LexedUpTo rest ls) :
    lexemes (Lexeme.textOf ls ++ rest) = ls ++ lexemes rest := by
  induction upTo with
  | nil => rfl
  | @cons l ls fits _ ih =>
      have text : Lexeme.textOf (l :: ls) ++ rest = l.text ++ (Lexeme.textOf ls ++ rest) := by
        rw [Lexeme.textOf, List.flatMap_cons, List.append_assoc, Lexeme.textOf]
      cases chars : l.text ++ (Lexeme.textOf ls ++ rest) with
      | nil => exact absurd (List.append_eq_nil_iff.mp chars).1 fits.text_ne_nil
      | cons c cs =>
          rw [text, chars, lexemes, Lexeme.next_of_fits fits chars, ih]
          rfl

/-- **The literal stands in the line** between `before` and `after`. -/
structure StringLiteral.StandsIn (lit : StringLiteral) (line before after : List Char) :
    Prop where
  whole : line = before ++ (lit.text ++ after)
  /-- The text before the literal is made of whole lexemes. -/
  lexed : ∃ ls, Lexeme.textOf ls = before ∧ LexedUpTo (lit.text ++ after) ls
  /-- An empty string is no beginning of a triple quote. -/
  single : lit.long = false → lit.body = [] → Stops (· == lit.quote.char) after

/-- **A literal is read where it stands.** -/
theorem StringLiteral.StandsIn.lexemes_eq {lit : StringLiteral} {line before after : List Char}
    (stands : lit.StandsIn line before after) :
    ∃ ls, Lexeme.textOf ls = before ∧ lexemes line = ls ++ lit.lexeme :: lexemes after := by
  obtain ⟨ls, text, upTo⟩ := stands.lexed
  refine ⟨ls, text, ?_⟩
  have one : LexedUpTo after [lit.lexeme] := .cons (lit.lexeme_fits stands.single) .nil
  have read := lexemes_of_lexedUpTo one
  rw [Lexeme.textOf, List.flatMap_singleton, lit.text_lexeme] at read
  rw [stands.whole, ← text, lexemes_of_lexedUpTo upTo, read]
  rfl

end Amalgam
