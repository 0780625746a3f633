import Amalgam.Proofs.ImportGrammar
import Amalgam.Proofs.TokenPlaces

/-!
# Text that writes words

The same words can be written in many ways: with more or fewer blanks among them, and with a
comment at the end of the line.  `Writes` has all texts that write given words, by one rule for
each thing that a text may start with.  What the lexer finds in such a text are the words,
whichever way they are written, and the program text of the line is all of it but the comment.

Texts that write words can be put together.  Behind a blank, or a mark such as a comma, no word
goes on that was read before it, so the words of both parts are found in the whole.

## Main statements

* `Writes`, `WritesLine` — texts and lines that write words
* `Writes.append`, `Writes.spaced` — texts put together
* `Writes.exists_lexemes`, `WritesLine.map_word`, `WritesLine.codeText` — what the lexer finds
* `writesLine_of_isPlainLine` — all lines without strings are such lines
-/

namespace Amalgam

/-- **The text writes the words**, with any blanks among them.  A word of letters ends where no
name character follows, and a mark where nothing follows that makes a longer operator of it. -/
inductive Writes : List Char → List Word → Prop where
  | nil : Writes [] []
  | blank {c : Char} {rest : List Char} {ws : List Word} (blank : isLineBlank c = true)
      (later : Writes rest ws) : Writes (c :: rest) ws
  | word {text rest : List Char} {ws : List Word} (identifier : isIdentifierText text = true)
      (stops : Stops isNameChar rest) (later : Writes rest ws) :
      Writes (text ++ rest) ((.ofWord text, String.ofList text) :: ws)
  | mark {c : Char} {rest : List Char} {ws : List Word} (symbol : isSymbol c = true)
      (stops : Stops (lengthens [c]) rest) (later : Writes rest ws) :
      Writes (c :: rest) ((charKind c, String.ofList [c]) :: ws)

/-- What may follow the program text of a line: nothing, or a comment. -/
inductive EndsLine : List Char → Prop where
  | none : EndsLine []
  | comment {text : List Char} (inLine : '\n' ∉ text) : EndsLine ('#' :: text)

/-- **The line writes the words**, and there may be a comment behind them. -/
def WritesLine (line : List Char) (ws : List Word) : Prop :=
  ∃ code tail, line = code ++ tail ∧ Writes code ws ∧ EndsLine tail

variable {ws : List Word} {code tail rest : List Char} {ls : List Lexeme}

theorem Writes.line (writes : Writes code ws) :
    WritesLine code ws :=
  ⟨code, [], (List.append_nil code).symm, writes, .none⟩

/-! ### Texts put together -/

/-- Does a new word or mark start with the character, whatever stands in front of it? -/
def startsAnew (c : Char) : Bool :=
  !isNameChar c && longOperators.all fun operator => operator.getLast? != some c

theorem stops_isNameChar_of_startsAnew {text : List Char}
    (anew : ∀ c, text.head? = some c → startsAnew c = true) : Stops isNameChar text := by
  intro c head
  have first := (Bool.and_eq_true_iff.mp (anew c head)).1
  simpa using first

theorem stops_lengthens_of_startsAnew {text : List Char}
    (anew : ∀ c, text.head? = some c → startsAnew c = true) (operator : List Char) :
    Stops (lengthens operator) text := by
  intro c head
  rw [lengthens, Bool.eq_false_iff, Ne, List.contains_iff_mem]
  intro longer
  -- the character would be the last one of an operator
  have others := (Bool.and_eq_true_iff.mp (anew c head)).2
  have other := List.all_eq_true.mp others _ longer
  simp at other

/-- **Texts put together** write the words of both. -/
theorem Writes.append {code' : List Char} {ws' : List Word} (first : Writes code ws)
    (second : Writes code' ws') (anew : ∀ c, code'.head? = some c → startsAnew c = true) :
    Writes (code ++ code') (ws ++ ws') := by
  induction first with
  | nil => exact second
  | blank blank _ ih => exact .blank blank ih
  | word identifier stops _ ih =>
      rw [List.append_assoc]
      exact .word identifier (stops.append (stops_isNameChar_of_startsAnew anew)) ih
  | mark symbol stops _ ih =>
      exact .mark symbol (stops.append (stops_lengthens_of_startsAnew anew _)) ih

/-- Texts put together with a space between them. -/
theorem Writes.spaced {code' : List Char} {ws' : List Word} (first : Writes code ws)
    (second : Writes code' ws') : Writes (code ++ ' ' :: code') (ws ++ ws') := by
  refine first.append (.blank (by decide) second) fun c head => ?_
  cases head
  decide

/-- Blanks in front of a text. -/
theorem Writes.blanks {gap : List Char} (blank : ∀ c ∈ gap, isLineBlank c = true)
    (later : Writes rest ws) :
    Writes (gap ++ rest) ws := by
  induction gap with
  | nil => exact later
  | cons c gap ih =>
      refine .blank (blank c List.mem_cons_self) (ih fun d member => ?_)
      exact blank d (List.mem_cons_of_mem _ member)

/-- A word by itself. -/
theorem Writes.single {text : List Char} (identifier : isIdentifierText text = true) :
    Writes text [(.ofWord text, String.ofList text)] := by
  have written := Writes.word identifier (stops_nil _) .nil
  rwa [List.append_nil] at written

/-! ### What the lexer finds -/

theorem isQuote_of_isLineBlank {c : Char} (blank : isLineBlank c = true) : isQuote c = false := by
  simp only [isLineBlank, Bool.or_eq_true, beq_iff_eq] at blank
  rcases blank with ((rfl | rfl) | rfl) | rfl <;> decide

/-- No quote stands at the start. -/
theorem Writes.stops_isQuote (writes : Writes code ws) :
    Stops isQuote code := by
  cases writes with
  | nil => exact stops_nil _
  | blank blank => exact stops_cons.mpr (isQuote_of_isLineBlank blank)
  | @word text rest _ identifier =>
      cases text with
      | nil => cases identifier
      | cons c cs =>
          have start := (Bool.and_eq_true_iff.mp identifier).1
          exact stops_cons.mpr (isQuote_of_isNameChar (isNameChar_of_isNameStart start))
  | mark symbol =>
      rw [isSymbol, Bool.not_eq_true'] at symbol
      exact stops_cons.mpr (Bool.or_eq_false_iff.mp symbol).2

theorem EndsLine.startsAnew (ends : EndsLine tail) :
    ∀ c, tail.head? = some c → startsAnew c = true := by
  intro c head
  cases ends with
  | none => cases head
  | comment =>
      cases head
      decide

theorem EndsLine.stops_isQuote (ends : EndsLine tail) : Stops isQuote tail := by
  cases ends with
  | none => exact stops_nil _
  | comment => exact stops_cons.mpr (by decide)

/-- A comment is one lexeme. -/
theorem EndsLine.lexemes_cases (ends : EndsLine tail) :
    lexemes tail = [] ∨ lexemes tail = [.literal tail] := by
  cases ends with
  | none =>
      left
      rw [lexemes]
  | @comment text inLine =>
      right
      have fits : (Lexeme.literal ('#' :: text)).Fits [] := by
        refine .comment (fun c member => ?_) (stops_nil _)
        rw [bne_iff_ne]
        rintro rfl
        exact inLine member
      have read := lexemes_append_of_fits fits
      rw [List.append_nil, lexemes] at read
      exact read

/-- **A blank in front of a text** joins the blanks there, or is a lexeme by itself. -/
theorem lexemes_blank_cons {c : Char} (blank : isLineBlank c = true) (rest : List Char) :
    (∃ text ls, lexemes rest = .blank text :: ls ∧
      lexemes (c :: rest) = .blank (c :: text) :: ls) ∨
    lexemes (c :: rest) = .blank [c] :: lexemes rest := by
  have whole := List.takeWhile_append_dropWhile (p := isLineBlank) (l := rest)
  have blanks : ∀ d ∈ c :: rest.takeWhile isLineBlank, isLineBlank d = true := by
    intro d member
    rcases List.mem_cons.mp member with rfl | later
    · exact blank
    · exact List.mem_takeWhile_imp later
  have read : lexemes (c :: rest) =
      .blank (c :: rest.takeWhile isLineBlank) :: lexemes (rest.dropWhile isLineBlank) := by
    have fits : (Lexeme.blank (c :: rest.takeWhile isLineBlank)).Fits
        (rest.dropWhile isLineBlank) :=
      .blank (List.cons_ne_nil _ _) blanks (stops_dropWhile _ _)
    have first := lexemes_append_of_fits fits
    rwa [Lexeme.text, List.cons_append, whole] at first
  by_cases none : rest.takeWhile isLineBlank = []
  · right
    rw [none, List.nil_append] at whole
    rw [read, none, whole]
  · left
    refine ⟨rest.takeWhile isLineBlank, lexemes (rest.dropWhile isLineBlank), ?_, read⟩
    have fits : (Lexeme.blank (rest.takeWhile isLineBlank)).Fits (rest.dropWhile isLineBlank) :=
      .blank none (fun d => List.mem_takeWhile_imp) (stops_dropWhile _ _)
    have first := lexemes_append_of_fits fits
    rwa [Lexeme.text, whole] at first

/-- The word of a lexeme, if it is a token. -/
def Lexeme.word? : Lexeme → Option Word
  | token kind text => some (kind, String.ofList text)
  | _ => none

/-- Where tokens stand does not show in their words. -/
theorem map_word_tokensFrom (start : Nat) (ls : List Lexeme) :
    (tokensFrom start ls).map Token.word = ls.filterMap Lexeme.word? := by
  induction ls generalizing start with
  | nil => rfl
  | cons l ls ih =>
      cases l with
      | token kind text => exact congrArg _ (ih _)
      | _ => exact ih _

/-- Is the lexeme program text? -/
def Lexeme.isCode : Lexeme → Bool
  | blank _ => true
  | token _ _ => true
  | _ => false

/-- The lexemes are program text, and it writes the words. -/
structure Lexeme.Spell (ls : List Lexeme) (code : List Char) (ws : List Word) : Prop where
  text : Lexeme.textOf ls = code
  words : ls.filterMap Lexeme.word? = ws
  isCode : ∀ l ∈ ls, l.isCode = true

theorem Lexeme.Spell.cons {l : Lexeme} (isCode : l.isCode = true) (later : Spell ls code ws) :
    Spell (l :: ls) (l.text ++ code) ((l :: ls).filterMap word?) where
  text := by rw [textOf_cons, later.text]
  words := rfl
  isCode l' member := by
    rcases List.mem_cons.mp member with rfl | old
    · exact isCode
    · exact later.isCode l' old

/-- A word is read as it is written. -/
theorem Writes.fits_word {text : List Char} (identifier : isIdentifierText text = true)
    (stops : Stops isNameChar rest) (later : Writes rest ws) (ends : EndsLine tail) :
    (Lexeme.token (.ofWord text) text).Fits (rest ++ tail) :=
  .word identifier (stops.append (stops_isNameChar_of_startsAnew ends.startsAnew)) fun _ =>
    later.stops_isQuote.append ends.stops_isQuote

/-- **What the lexer finds**: the program text, and the comment behind it as if it stood
alone. -/
theorem Writes.exists_lexemes (writes : Writes code ws) (ends : EndsLine tail) :
    ∃ ls, lexemes (code ++ tail) = ls ++ lexemes tail ∧ Lexeme.Spell ls code ws := by
  induction writes with
  | nil => exact ⟨[], rfl, rfl, rfl, by simp⟩
  | @blank c rest ws blank later ih =>
      obtain ⟨ls, found, spell⟩ := ih
      rcases lexemes_blank_cons blank (rest ++ tail) with ⟨text, ls', first, joined⟩ | alone
      · -- the blanks that it joins are not in the comment
        rw [found] at first
        cases ls with
        | nil =>
            rcases ends.lexemes_cases with nothing | comment
            · rw [List.nil_append, nothing] at first
              cases first
            · rw [List.nil_append, comment] at first
              cases first
        | cons l ls =>
            obtain ⟨rfl, rfl⟩ := List.cons.inj first
            refine ⟨.blank (c :: text) :: ls, joined, ?_, spell.words, ?_⟩
            · have whole := spell.text
              rw [Lexeme.textOf_cons] at whole ⊢
              rw [← whole]
              rfl
            · simpa [Lexeme.isCode] using spell.isCode
      · refine ⟨.blank [c] :: ls, ?_, ?_⟩
        · rw [List.cons_append, alone, found, List.cons_append]
        · rw [← spell.words]
          exact spell.cons rfl
  | @word text rest ws identifier stops later ih =>
      obtain ⟨ls, found, spell⟩ := ih
      refine ⟨.token (.ofWord text) text :: ls, ?_, ?_⟩
      · rw [List.append_assoc, List.cons_append, ← found]
        exact lexemes_append_of_fits (later.fits_word identifier stops ends)
      · rw [← spell.words]
        exact spell.cons rfl
  | @mark c rest ws symbol stops later ih =>
      obtain ⟨ls, found, spell⟩ := ih
      have fits : (Lexeme.token (charKind c) [c]).Fits (rest ++ tail) :=
        .symbol symbol (stops.append (stops_lengthens_of_startsAnew ends.startsAnew _))
      refine ⟨.token (charKind c) [c] :: ls, ?_, ?_⟩
      · rw [List.cons_append, List.cons_append, ← found]
        exact lexemes_append_of_fits fits
      · rw [← spell.words]
        exact spell.cons rfl

/-! ### Program text -/

/-- The characters of program text. -/
def codeOf (marks : List Mark) : List Char :=
  (marks.filter (·.2 = .code)).map Prod.fst

theorem codeOf_append (first second : List Mark) :
    codeOf (first ++ second) = codeOf first ++ codeOf second := by
  rw [codeOf, List.filter_append, List.map_append]
  rfl

@[simp] theorem codeOf_codeMarks (text : List Char) : codeOf (codeMarks text) = text := by
  have all : (codeMarks text).filter (·.2 = .code) = codeMarks text := by
    simp [codeMarks]
  rw [codeOf, all, map_fst_codeMarks]

@[simp] theorem codeOf_literalMarks (text : List Char) : codeOf (literalMarks text) = [] := by
  simp [codeOf, literalMarks]

theorem codeText_eq_codeOf (line : LexedLine) :
    line.codeText = codeOf (Segment.marksOf line.segments) := by
  rw [LexedLine.codeText]
  induction line.segments with
  | nil => rfl
  | cons s segments ih =>
      obtain ⟨kind, text⟩ := s
      rw [Segment.marksOf_cons, codeOf_append, ← ih]
      cases kind with
      | code => exact congrArg (· ++ _) (codeOf_codeMarks text).symm
      | literal => exact congrArg (· ++ _) (codeOf_literalMarks text).symm

/-- Lexemes of program text have nothing but code. -/
theorem Lexeme.Spell.marks (spell : Spell ls code ws) :
    ls.flatMap Lexeme.marks = codeMarks code := by
  obtain ⟨rfl, -, isCode⟩ := spell
  induction ls with
  | nil => rfl
  | cons l ls ih =>
      have first : l.marks = codeMarks l.text := by
        have code := isCode l List.mem_cons_self
        cases l with
        | blank text => exact marks_blank text
        | token kind text => exact marks_token kind text
        | _ => cases code
      rw [List.flatMap_cons, first, ih fun l' member => isCode l' (List.mem_cons_of_mem _ member),
        textOf_cons]
      exact List.map_append.symm

/-- Lexemes that are program text or a comment leave no string open. -/
theorem openString_eq_none (closed : ∀ quote text, Lexeme.unclosed quote text ∉ ls) :
    openString ls = none := by
  unfold openString
  split
  next quote text last => exact absurd (List.mem_of_getLast? last) (closed quote text)
  next => rfl

/-- **The lexer finds the words** of a line that writes them. -/
theorem WritesLine.map_word {line : List Char} (writes : WritesLine line ws) :
    (lexFresh line).tokens.map Token.word = ws := by
  obtain ⟨code, tail, rfl, writes, ends⟩ := writes
  obtain ⟨ls, found, spell⟩ := writes.exists_lexemes ends
  change (tokensFrom 0 (lexemes (code ++ tail))).map Token.word = ws
  rw [map_word_tokensFrom, found, List.filterMap_append, spell.words]
  rcases ends.lexemes_cases with nothing | comment
  · rw [nothing, List.filterMap_nil, List.append_nil]
  · rw [comment]
    exact List.append_nil ws

/-- A line that writes words leaves no string open. -/
theorem WritesLine.lexFrom_eq {line : List Char} (writes : WritesLine line ws) :
    lexFrom none line = (lexFresh line, none) := by
  refine Prod.ext rfl ?_
  obtain ⟨code, tail, rfl, writes, ends⟩ := writes
  obtain ⟨ls, found, spell⟩ := writes.exists_lexemes ends
  change openString (lexemes (code ++ tail)) = none
  rw [found]
  refine openString_eq_none fun quote text member => ?_
  rcases List.mem_append.mp member with early | late
  · cases spell.isCode _ early
  · rcases ends.lexemes_cases with nothing | comment
    · rw [nothing] at late
      cases late
    · rw [comment, List.mem_singleton] at late
      cases late

/-- **Its program text** writes the words without the comment. -/
theorem WritesLine.codeText {line : List Char} (writes : WritesLine line ws) :
    Writes (lexFresh line).codeText ws := by
  obtain ⟨code, tail, rfl, writes, ends⟩ := writes
  obtain ⟨ls, found, spell⟩ := writes.exists_lexemes ends
  have same : (lexFresh (code ++ tail)).codeText = code := by
    rw [codeText_eq_codeOf]
    change codeOf (Segment.marksOf (segmentsOf (lexemes (code ++ tail)))) = code
    rw [Segment.marksOf_segmentsOf, found, List.flatMap_append, spell.marks, codeOf_append,
      codeOf_codeMarks]
    rcases ends.lexemes_cases with nothing | comment
    · rw [nothing]
      exact List.append_nil code
    · rw [comment, List.flatMap_singleton, Lexeme.marks_literal, codeOf_literalMarks,
        List.append_nil]
  rw [same]
  exact writes

/-! ### Lines without strings -/

/-- Is the lexeme a blank, a comment, or a token that is a name, one of the words told apart or
a mark of its own? -/
def Lexeme.isPlain : Lexeme → Bool
  | blank _ => true
  | token kind _ => kind != .number && kind != .op
  | literal text => text.head? == some '#'
  | _ => false

/-- Is the line made of such lexemes? -/
def isPlainLine (line : List Char) : Bool :=
  !line.contains '\n' && (lexemes line).all Lexeme.isPlain

theorem WritesLine.stops_isQuote {line : List Char} (writes : WritesLine line ws) :
    Stops isQuote line := by
  obtain ⟨code, tail, rfl, writes, ends⟩ := writes
  exact writes.stops_isQuote.append ends.stops_isQuote

/-- No string looks like a comment. -/
theorem IsStringPrefix.head?_ne {letters : List Char} (isPrefix : IsStringPrefix letters)
    (q : Quote) (rest : List Char) : (letters ++ [q.char] ++ rest).head? ≠ some '#' := by
  cases letters with
  | nil => cases q <;> exact fun same => absurd (Option.some.inj same) (by decide)
  | cons c cs =>
      intro same
      have letter := isPrefix.letters c List.mem_cons_self
      rw [Option.some.inj same] at letter
      exact absurd letter (by decide)

/-- **A lexeme in front of a line** that writes words. -/
theorem WritesLine.cons {l : Lexeme} (later : WritesLine rest ws)
    (reads : l.Fits rest ∨ l.Stray rest) (plain : l.isPlain = true) (inLine : '\n' ∉ rest) :
    WritesLine (l.text ++ rest) (l.word?.toList ++ ws) := by
  obtain ⟨code, tail, whole, writes, ends⟩ := id later
  rcases reads with fits | stray
  · cases fits with
    | @blank text _ _ blanks _ =>
        subst whole
        exact ⟨text ++ code, tail, (List.append_assoc _ _ _).symm, writes.blanks blanks, ends⟩
    | @comment text _ within stops =>
        -- the comment goes on to the end of the line
        cases rest with
        | nil =>
            have nothing := later.map_word
            change (tokensFrom 0 (lexemes [])).map Token.word = ws at nothing
            rw [lexemes] at nothing
            subst nothing
            refine ⟨[], '#' :: text, List.append_nil _, .nil, .comment fun member => ?_⟩
            exact absurd (within _ member) (by decide)
        | cons c cs =>
            have ended : c = '\n' := by simpa using stops_cons.mp stops
            exact absurd (ended ▸ List.mem_cons_self) inLine
    | @word text _ identifier stops _ =>
        subst whole
        exact ⟨text ++ code, tail, (List.append_assoc _ _ _).symm,
          .word identifier stops.of_append writes, ends⟩
    | integer => cases plain
    | decimal => cases plain
    | operator => cases plain
    | @symbol c _ symbol stops =>
        subst whole
        exact ⟨c :: code, tail, rfl, .mark symbol stops.of_append writes, ends⟩
    | string isPrefix =>
        rw [Lexeme.isPlain, beq_iff_eq, List.append_assoc] at plain
        exact absurd plain (isPrefix.head?_ne _ _)
    | formatted => cases plain
    | triple isPrefix =>
        rw [Lexeme.isPlain, beq_iff_eq, List.append_assoc] at plain
        exact absurd plain (isPrefix.head?_ne _ _)
    | unclosed => cases plain
  · cases stray with
    | @letters _ _ q =>
        have notQuote := stops_cons.mp later.stops_isQuote
        cases q <;> exact absurd notQuote (by decide)
    | op => cases plain

/-- **A line without strings, numbers and other operators writes its words.** -/
theorem writesLine_of_isPlainLine {line : List Char} (plain : isPlainLine line = true) :
    WritesLine line ((lexFresh line).tokens.map Token.word) := by
  change WritesLine line ((tokensFrom 0 (lexemes line)).map Token.word)
  rw [map_word_tokensFrom]
  rw [isPlainLine, Bool.and_eq_true, Bool.not_eq_true', Bool.eq_false_iff, Ne,
    List.contains_iff_mem, List.all_eq_true] at plain
  obtain ⟨inLine, plain⟩ := plain
  fun_induction lexemes line with
  | case1 => exact Writes.nil.line
  | case2 c cs ih =>
      obtain ⟨whole, reads⟩ := Lexeme.next_reads c cs
      rw [← whole] at inLine
      have shorter : '\n' ∉ (Lexeme.next c cs).2 := fun member =>
        inLine (List.mem_append_right _ member)
      have later := ih shorter fun l member => plain l (List.mem_cons_of_mem _ member)
      have first := later.cons reads (plain _ List.mem_cons_self) shorter
      rw [whole] at first
      cases found : (Lexeme.next c cs).1.word? with
      | none =>
          rw [List.filterMap_cons_none found]
          rwa [found] at first
      | some w =>
          rw [List.filterMap_cons_some found]
          rwa [found] at first

end Amalgam
