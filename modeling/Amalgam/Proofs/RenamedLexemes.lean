import Amalgam.Proofs.FormattedStrings

/-!
# Lexemes before and after a renaming

A renaming works on characters, the lexer on lexemes.  This module goes along an alignment
of two lines and the grammar of lexemes, and cuts the alignment at each lexeme.

**A lexeme that is copied** fits in front of the renamed rest, since the rest starts alike.
**A key that is swapped** starts at a lexeme, which then is a word; the next lexemes are the
dots and words of the key, and the replacement fits in their place.  **A formatted string**
has its fields renamed and is one formatted string again.  What is found that way is a
grammatical list of lexemes, and makes up the renamed line.

## Main statements

* `Lexeme.Fits.formatted_or_tight` — a swap begins where a lexeme does
* `Lexed.split_key` — the lexemes of a key
* `Renamed`, `Renames` — lexemes before and after, and one step of them
* `Lexed.exists_renamed` — grammatical lexemes are renamed to grammatical lexemes
-/

namespace Amalgam

/-! ### Marks of lexemes -/

namespace Lexeme

@[simp] theorem marks_token (kind : Token.Kind) (text : List Char) :
    (token kind text).marks = codeMarks text := by
  simp [marks, pieces, Segment.marksOf, Segment.marks, codeMarks]

@[simp] theorem marks_blank (text : List Char) : (blank text).marks = codeMarks text := by
  simp [marks, pieces, Segment.marksOf, Segment.marks, codeMarks]

@[simp] theorem marks_literal (text : List Char) : (literal text).marks = literalMarks text := by
  simp [marks, pieces, Segment.marksOf, Segment.marks, literalMarks]

@[simp] theorem marks_unclosed (quote : Quote) (text : List Char) :
    (unclosed quote text).marks = literalMarks text := by
  simp [marks, pieces, Segment.marksOf, Segment.marks, literalMarks]

theorem marks_formatted (opening body closing : List Char) :
    (formatted opening body closing).marks =
      literalMarks opening ++ Segment.marksOf (fieldPieces closing none body) :=
  marksOf_foldr_attach closing opening none body

theorem textOf_eq_marks (ls : List Lexeme) : textOf ls = (ls.flatMap marks).map Prod.fst := by
  induction ls with
  | nil => rfl
  | cons l ls ih =>
      rw [textOf, List.flatMap_cons, List.flatMap_cons, List.map_append, map_fst_marks, ← ih,
        textOf]

end Lexeme

/-! ### Where a swap can begin -/

theorem isIdentChar_of_isNameChar {c : Char} (name : isNameChar c = true) :
    isIdentChar c = true := by
  rw [isIdentChar, Bool.or_eq_true]
  exact Or.inl name

/-- No name starts after a name character or a dot. -/
theorem startsAfter_of_isNameChar_or_dot {c : Char} (inside : isNameChar c = true ∨ c = '.') :
    Renaming.startsAfter (some c) = false := by
  rcases inside with name | rfl
  · simp [Renaming.startsAfter, isIdentChar_of_isNameChar name]
  · simp [Renaming.startsAfter]

variable {text rest : List Char} {ms : List Mark} {before : Option Char} {edits : List Edit}
  {ls : List Lexeme}

/-- Where a name can end, no name goes on. -/
theorem stops_of_endsBefore (ends : Renaming.endsBefore text.head? = true) :
    Stops isNameChar text := by
  intro c head
  rw [Bool.eq_false_iff]
  intro name
  rw [head, Renaming.endsBefore, isIdentChar_of_isNameChar name] at ends
  cases ends

theorem stuck_names (held : Renaming.startsAfter before = false)
    (names : ∀ c ∈ text, isNameChar c = true ∨ c = '.') : Stuck before (codeMarks text) := by
  induction text generalizing before with
  | nil => trivial
  | cons c cs ih =>
      refine ⟨Or.inr (Or.inl held), ih ?_ fun d member => names d (List.mem_cons_of_mem _ member)⟩
      exact startsAfter_of_isNameChar_or_dot (names c List.mem_cons_self)

theorem stuck_nameless (nameless : ∀ c ∈ text, isNameStart c = false) :
    Stuck before (codeMarks text) := by
  induction text generalizing before with
  | nil => trivial
  | cons c cs ih =>
      exact ⟨Or.inr (Or.inr (nameless c List.mem_cons_self)),
        ih fun d member => nameless d (List.mem_cons_of_mem _ member)⟩

/-- **A swap begins where a lexeme does**, formatted strings apart. -/
def Lexeme.Tight (l : Lexeme) : Prop :=
  ∃ mark ms, l.marks = mark :: ms ∧ Stuck (some mark.1) ms

namespace Lexeme

variable {l : Lexeme} {c : Char}

theorem tight_literal (marks : l.marks = literalMarks text) (some : text ≠ []) : l.Tight := by
  cases text with
  | nil => exact absurd rfl some
  | cons c cs => exact ⟨(c, .literal), literalMarks cs, marks, stuck_literalMarks _ cs⟩

theorem tight_nameless (marks : l.marks = codeMarks text) (some : text ≠ [])
    (nameless : ∀ c ∈ text, isNameStart c = false) : l.Tight := by
  cases text with
  | nil => exact absurd rfl some
  | cons c cs =>
      exact ⟨(c, .code), codeMarks cs, marks,
        stuck_nameless fun d member => nameless d (List.mem_cons_of_mem _ member)⟩

theorem tight_names (marks : l.marks = codeMarks text) (some : text ≠ [])
    (names : ∀ c ∈ text, isNameChar c = true ∨ c = '.') : l.Tight := by
  cases text with
  | nil => exact absurd rfl some
  | cons c cs =>
      refine ⟨(c, .code), codeMarks cs, marks, stuck_names ?_ fun d member =>
        names d (List.mem_cons_of_mem _ member)⟩
      exact startsAfter_of_isNameChar_or_dot (names c List.mem_cons_self)

theorem nameless_blank (blank : isLineBlank c = true) : isNameStart c = false := by
  rw [Bool.eq_false_iff]
  intro start
  rw [isLineBlank_of_isNameStart start] at blank
  cases blank

theorem nameless_symbol (symbol : isSymbol c = true) : isNameStart c = false := by
  rw [Bool.eq_false_iff]
  intro start
  simp [isSymbol, start] at symbol

theorem isNameChar_of_isDigit (digit : c.isDigit = true) : isNameChar c = true := by
  simp [isNameChar, Char.isAlphanum, digit]

/-- **A swap begins where a lexeme does**, formatted strings apart. -/
theorem Fits.formatted_or_tight (fits : l.Fits rest) :
    (∃ opening body closing, l = .formatted opening body closing) ∨ l.Tight := by
  have some := fits.text_ne_nil
  cases fits with
  | formatted => exact Or.inl ⟨_, _, _, rfl⟩
  | blank _ blanks =>
      exact Or.inr (tight_nameless (marks_blank _) some fun c member =>
        nameless_blank (blanks c member))
  | comment => exact Or.inr (tight_literal (marks_literal _) some)
  | word identifier =>
      refine Or.inr (tight_names (marks_token _ _) some fun c member => ?_)
      exact Or.inl (isIdentifierText.all identifier c member)
  | integer digit names =>
      refine Or.inr (tight_names (marks_token _ _) some fun c member => Or.inl ?_)
      rcases List.mem_cons.mp member with rfl | member
      · exact isNameChar_of_isDigit digit
      · exact names c member
  | decimal digit names names' =>
      refine Or.inr (tight_names (marks_token _ _) some fun c member => ?_)
      simp only [List.mem_cons, List.mem_append] at member
      rcases member with rfl | whole | dot | fraction
      · exact Or.inl (isNameChar_of_isDigit digit)
      · exact Or.inl (names c whole)
      · exact Or.inr dot
      · exact Or.inl (names' c fraction)
  | operator long => exact Or.inr (tight_nameless (marks_token _ _) some (nameless_operator long))
  | symbol symbol =>
      refine Or.inr (tight_nameless (marks_token _ _) some fun c member => ?_)
      rw [List.mem_singleton.mp member]
      exact nameless_symbol symbol
  | string => exact Or.inr (tight_literal (marks_literal _) some)
  | triple => exact Or.inr (tight_literal (marks_literal _) some)
  | unclosed => exact Or.inr (tight_literal (marks_unclosed _ _) some)

/-- What code can be, by its first character. -/
theorem Fits.code_cases (fits : l.Fits rest) (marks : l.marks = (c, .code) :: ms) :
    isLineBlank c = true ∨ c.isDigit = true ∨ (∃ operator ∈ longOperators, c ∈ operator) ∨
      (isSymbol c = true ∧ l = .token (charKind c) [c]) ∨
      ∃ text, l = .token (.ofWord text) text ∧ isIdentifierText text = true ∧
        Stops isNameChar rest := by
  have first : l.text.head? = some c := by
    rw [← map_fst_marks, marks]
    rfl
  have noLiteral : ∀ {text : List Char} {ms' : List Mark}, text ≠ [] →
      literalMarks text ++ ms' = (c, .code) :: ms → False := by
    intro text ms' some same
    cases text with
    | nil => exact some rfl
    | cons d ds => cases same
  cases fits with
  | blank _ blanks => exact Or.inl (blanks c (List.mem_of_head? first))
  | word identifier stops =>
      exact Or.inr (Or.inr (Or.inr (Or.inr ⟨_, rfl, identifier, stops⟩)))
  | integer digit =>
      cases first
      exact Or.inr (Or.inl digit)
  | decimal digit =>
      cases first
      exact Or.inr (Or.inl digit)
  | operator long => exact Or.inr (Or.inr (Or.inl ⟨_, long, List.mem_of_head? first⟩))
  | symbol symbol =>
      cases first
      exact Or.inr (Or.inr (Or.inr (Or.inl ⟨symbol, rfl⟩)))
  | formatted =>
      rw [marks_formatted] at marks
      exact (noLiteral (by simp) marks).elim
  | unclosed =>
      rw [marks_unclosed, ← List.append_nil (literalMarks _)] at marks
      exact (noLiteral (by simp) marks).elim
  | _ =>
      rw [marks_literal, ← List.append_nil (literalMarks _)] at marks
      exact (noLiteral (by simp) marks).elim

/-- **Code that starts a name is a word.** -/
theorem Fits.word_of_start (fits : l.Fits rest) (marks : l.marks = (c, .code) :: ms)
    (start : isNameStart c = true) :
    ∃ text, l = .token (.ofWord text) text ∧ isIdentifierText text = true ∧
      Stops isNameChar rest := by
  have apart : isNameStart c ≠ false := by simp [start]
  rcases fits.code_cases marks with blank | digit | ⟨operator, long, member⟩ | ⟨symbol, -⟩ | word
  · exact absurd (nameless_blank blank) apart
  · exact absurd (isNameStart_of_isDigit digit) apart
  · exact absurd (nameless_operator long c member) apart
  · exact absurd (nameless_symbol symbol) apart
  · exact word

/-- **A dot in code is a dot.** -/
theorem Fits.dot_of_code (fits : l.Fits rest) (marks : l.marks = ('.', .code) :: ms) :
    l = .token .dot ['.'] := by
  have undotted : (longOperators.all fun text => !text.contains '.') = true := by decide
  rcases fits.code_cases marks with
    blank | digit | ⟨operator, long, member⟩ | ⟨-, shape⟩ | ⟨text, rfl, identifier, -⟩
  · exact absurd blank (by decide)
  · exact absurd digit (by decide)
  · have without := List.all_eq_true.mp undotted operator long
    simp [member] at without
  · exact shape
  · rw [marks_token] at marks
    have inside : '.' ∈ text := by
      rw [← map_fst_codeMarks text, marks]
      exact List.mem_cons_self
    exact absurd (isIdentifierText.all identifier _ inside) (by decide)

end Lexeme

/-! ### Keys are runs of lexemes -/

/-- **The lexemes spell the key**: identifiers with dots between them. -/
inductive SpelledBy : List Char → List Lexeme → Prop where
  | word (text : List Char) : SpelledBy text [.token .ident text]
  | dot (text : List Char) {rest : List Char} {run : List Lexeme} (later : SpelledBy rest run) :
      SpelledBy (text ++ '.' :: rest) (.token .ident text :: .token .dot ['.'] :: run)

theorem SpelledBy.ne_nil {key : List Char} {run : List Lexeme} (spelled : SpelledBy key run) :
    run ≠ [] := by
  cases spelled <;> simp

/-- Two words in front of texts that do not go on with a name are one. -/
theorem eq_of_append_eq {text' rest' : List Char} (names : ∀ c ∈ text, isNameChar c = true)
    (names' : ∀ c ∈ text', isNameChar c = true) (stops : Stops isNameChar rest)
    (stops' : Stops isNameChar rest') (same : text ++ rest = text' ++ rest') : text = text' := by
  rw [← takeWhile_of_stops names stops, same, takeWhile_of_stops names' stops']

/-- The first mark of a line is the first of its first lexeme. -/
theorem Lexed.uncons (lexed : Lexed ls) {mark : Mark}
    (marks : ls.flatMap Lexeme.marks = mark :: ms) :
    ∃ l later own, ls = l :: later ∧ l.Fits (Lexeme.textOf later) ∧ Lexed later ∧
      l.marks = mark :: own := by
  cases lexed with
  | nil => cases marks
  | @cons l later fits lexed =>
      cases own : l.marks with
      | nil =>
          have text := l.map_fst_marks
          rw [own] at text
          exact absurd text.symm fits.text_ne_nil
      | cons first own' =>
          rw [List.flatMap_cons, own] at marks
          obtain ⟨rfl, -⟩ := List.cons.inj marks
          exact ⟨l, later, own', rfl, fits, lexed, own⟩

/-- The first word of a key is the first lexeme. -/
theorem Lexed.split_word (lexed : Lexed ls)
    (identifier : isIdentifierText text = true) (plain : Token.Kind.ofWord text = .ident)
    (stops : Stops isNameChar (ms.map Prod.fst))
    (marks : ls.flatMap Lexeme.marks = codeMarks text ++ ms) :
    ∃ later, ls = .token .ident text :: later ∧ Lexed later ∧ later.flatMap Lexeme.marks = ms := by
  obtain ⟨c, cs, rfl, start⟩ : ∃ c cs, text = c :: cs ∧ isNameStart c = true :=
    (IsDotted.word identifier plain).start
  obtain ⟨l, later, own, rfl, fits, lexedLater, first⟩ := lexed.uncons marks
  obtain ⟨word, rfl, identifier', stops'⟩ := fits.word_of_start first start
  rw [List.flatMap_cons, Lexeme.marks_token] at marks
  obtain rfl : word = c :: cs := by
    refine eq_of_append_eq (isIdentifierText.all identifier') (isIdentifierText.all identifier)
      stops' stops ?_
    have texts := congrArg (List.map Prod.fst) marks
    rwa [List.map_append, List.map_append, map_fst_codeMarks, map_fst_codeMarks,
      ← Lexeme.textOf_eq_marks] at texts
  exact ⟨later, by rw [plain], lexedLater, List.append_cancel_left marks⟩

/-- **The lexemes of a key.** -/
theorem Lexed.split_key {key : List Char} (dotted : IsDotted key)
    (lexed : Lexed ls) (stops : Stops isNameChar (ms.map Prod.fst))
    (marks : ls.flatMap Lexeme.marks = codeMarks key ++ ms) :
    ∃ run later, ls = run ++ later ∧ SpelledBy key run ∧ Lexed later ∧
      later.flatMap Lexeme.marks = ms := by
  induction dotted generalizing ls with
  | word identifier plain =>
      obtain ⟨later, rfl, lexed, rest⟩ := lexed.split_word identifier plain stops marks
      exact ⟨_, later, rfl, .word _, lexed, rest⟩
  | @dot text key identifier plain _ ih =>
      rw [codeMarks, List.map_append, List.append_assoc] at marks
      -- a word, a dot, and the rest of the key by induction
      obtain ⟨ls', rfl, lexed', rest⟩ :=
        lexed.split_word identifier plain (stops_cons.mpr (by decide)) marks
      obtain ⟨l, later, own, rfl, fits, lexedLater, first⟩ := lexed'.uncons rest
      obtain rfl := fits.dot_of_code first
      rw [List.flatMap_cons, Lexeme.marks_token] at rest
      obtain ⟨run, last, rfl, spelled, lexedLast, behind⟩ := ih lexedLater (List.cons.inj rest).2
      exact ⟨_, last, rfl, .dot text spelled, lexedLast, behind⟩

/-! ### Lexemes before and after -/

/-- **The edits make one list of lexemes of another.**  A lexeme is copied, or it is a
formatted string and its fields are edited, or the lexemes of a key are swapped for an
identifier. -/
inductive Renamed : List Edit → List Lexeme → List Lexeme → Prop where
  | nil : Renamed [] [] []
  | same {edits : List Edit} {l : Lexeme} {ls ls' : List Lexeme} (later : Renamed edits ls ls') :
      Renamed (Edit.copies l.marks ++ edits) (l :: ls) (l :: ls')
  | fields {inside edits : List Edit} {opening closing : List Char} {ls ls' : List Lexeme}
      (alike : List.Forall₂ PieceAlike (fieldPieces closing none (Edit.oldText inside))
        (fieldPieces closing none (Edit.newText inside))) (later : Renamed edits ls ls') :
      Renamed (Edit.copies (literalMarks opening) ++
          (inside ++ (Edit.copies (literalMarks closing) ++ edits)))
        (.formatted opening (Edit.oldText inside) closing :: ls)
        (.formatted opening (Edit.newText inside) closing :: ls')
  | run {rule : Renaming.Rule} {edits : List Edit} {run ls ls' : List Lexeme}
      (lexical : rule.Lexical) (spelled : SpelledBy rule.key run) (later : Renamed edits ls ls') :
      Renamed (.swap rule :: edits) (run ++ ls) (.token .ident rule.replacement :: ls')

/-- The renamed lexemes make up the new line. -/
theorem Renamed.newText_eq {ls' : List Lexeme}
    (renamed : Renamed edits ls ls') : Edit.newText edits = Lexeme.textOf ls' := by
  induction renamed with
  | nil => rfl
  | same _ ih =>
      rw [Edit.newText_append, Edit.newText_copies, Lexeme.map_fst_marks, ih]
      rfl
  | fields _ _ ih => simp [ih, Lexeme.textOf, Lexeme.text]
  | run _ _ _ ih => exact congrArg (_ ++ ·) ih

/-- A replacement fits where its key was. -/
theorem Renaming.Rule.Lexical.fits {rule : Renaming.Rule} (lexical : rule.Lexical)
    (stops : Stops isNameChar rest) :
    (Lexeme.token .ident rule.replacement).Fits rest := by
  have underscore : '_' ∈ rule.replacement := lexical.underscores.subset (by simp)
  have plain : Token.Kind.ofWord rule.replacement = .ident := by
    have emitted : IsEmitted (String.ofList rule.replacement) :=
      ⟨by simpa [IsIdentifier] using lexical.identifier, by simpa using underscore⟩
    simpa using emitted.ofWord
  rw [← plain]
  -- no string can start here, an underscore is no letter of a string's prefix
  refine .word lexical.identifier stops fun isPrefix => ?_
  exact absurd (isPrefix.letters '_' underscore) (by decide)

/-- A formatted string may get another body. -/
theorem Lexeme.Fits.reformatted {opening body body' closing : List Char}
    (fits : (Lexeme.formatted opening body closing).Fits rest)
    (same : ∀ q : Quote, isBody q.char false body' = isBody q.char false body)
    (empty : body' = [] ↔ body = []) : (Lexeme.formatted opening body' closing).Fits rest := by
  cases fits with
  | formatted isPrefix formatted isBody' single =>
      exact .formatted isPrefix formatted (by rw [same, isBody']) fun nil => single (empty.mp nil)

/-- **One lexeme of the renamed line**: `l'` stands for the first of `ls`, and edits go on
with `later` at the lexemes `rest`. -/
structure Renames (r : Renaming) (edits later : List Edit) (ls rest : List Lexeme) (l' : Lexeme) :
    Prop where
  shorter : rest.length < ls.length
  lexed : Lexed rest
  marks : Edit.marksOf later = rest.flatMap Lexeme.marks
  placed : ∃ before, Edit.Placed r before later
  fits : ∀ {text}, StartAlike (Lexeme.textOf rest) text → l'.Fits text
  renamed : ∀ {ls'}, Renamed later rest ls' → Renamed edits ls (l' :: ls')

section Step

variable {r : Renaming} (lexical : ∀ rule ∈ r.rules, rule.Lexical) {l : Lexeme}
  (fits : l.Fits (Lexeme.textOf ls)) (lexed : Lexed ls)

include lexical fits lexed

/-- A lexeme is copied. -/
theorem exists_renames_copy {mark : Mark} {ms : List Mark} (own : l.marks = mark :: ms)
    (stuck : Stuck (some mark.1) ms) {later : List Edit}
    (placed : Edit.Placed r (some mark.1) later)
    (marks : Edit.marksOf later = ms ++ ls.flatMap Lexeme.marks) :
    ∃ last, Renames r (.copy mark :: later) last (l :: ls) ls l := by
  obtain ⟨last, before', rfl, rest, placed⟩ := Edit.split_copied lexical placed stuck marks
  refine ⟨last, Nat.lt_succ_self _, lexed, rest, ⟨before', placed⟩, fits.congr, fun renamed => ?_⟩
  have copied := Renamed.same (l := l) renamed
  rwa [own] at copied

/-- The lexemes of a key are swapped for its replacement. -/
theorem exists_renames_swap {rule : Renaming.Rule} {later : List Edit}
    (placed : Edit.Placed r before (.swap rule :: later))
    (marks : Edit.marksOf (.swap rule :: later) = (l :: ls).flatMap Lexeme.marks) :
    ∃ rest, Renames r (.swap rule :: later) later (l :: ls) rest
      (.token .ident rule.replacement) := by
  obtain ⟨member, -, ends, placed⟩ := placed
  have stops : Stops isNameChar (Edit.oldText later) := stops_of_endsBefore ends
  obtain ⟨run, rest, shape, spelled, lexedRest, behind⟩ :=
    (Lexed.cons fits lexed).split_key (lexical rule member).dotted stops marks.symm
  refine ⟨rest, ?_, lexedRest, behind.symm, ⟨_, placed⟩, fun alike => ?_, fun renamed => ?_⟩
  · have count := congrArg List.length shape
    rw [List.length_append] at count
    have some := List.length_pos_iff.mpr spelled.ne_nil
    omega
  · refine (lexical rule member).fits (alike.stops (fun c d start start' => ?_) ?_)
    · rw [isNameChar_of_isNameStart start, isNameChar_of_isNameStart start']
    · rwa [Lexeme.textOf_eq_marks, behind]
  · rw [shape]
    exact .run (lexical rule member) spelled renamed

omit fits

/-- The fields of a formatted string are edited. -/
theorem exists_renames_fields {opening body closing : List Char}
    (fits : (Lexeme.formatted opening body closing).Fits (Lexeme.textOf ls))
    (placed : Edit.Placed r before edits)
    (marks : Edit.marksOf edits =
      (Lexeme.formatted opening body closing).marks ++ ls.flatMap Lexeme.marks) :
    ∃ later body', Renames r edits later (.formatted opening body closing :: ls) ls
      (.formatted opening body' closing) := by
  obtain ⟨ms, inBody, text⟩ := marksOf_fieldPieces closing none body
  rw [Lexeme.marks_formatted, inBody, List.append_assoc, List.append_assoc] at marks
  -- the quotes are literal, so the edits of the body can be cut out between them
  obtain ⟨fromBody, _, rfl, old, placed⟩ :=
    Edit.split_copied lexical placed (stuck_literalMarks _ opening) marks
  have quote : ∀ mark, (literalMarks closing ++ ls.flatMap Lexeme.marks).head? = some mark →
      mark.2 = .literal := by
    intro mark head
    cases fits
    cases head
    rfl
  obtain ⟨inside, fromClosing, _, rfl, oldInside, old, placedClosing⟩ :=
    Edit.split_literal placed quote old
  obtain ⟨later, before', rfl, rest, placedLater⟩ :=
    Edit.split_copied lexical placedClosing (stuck_literalMarks _ closing) old
  obtain rfl : Edit.oldText inside = body := by rw [Edit.oldText, oldInside, text]
  have alike := fieldPieces_alike lexical closing placed.left none (by rw [oldInside, inBody])
  refine ⟨later, Edit.newText inside, Nat.lt_succ_self _, lexed, rest, ⟨before', placedLater⟩,
    fun start => (fits.congr start).reformatted (fun q => ?_) ?_, Renamed.fields alike⟩
  · exact isBody_newText lexical q placed.left false
  · exact Edit.newText_eq_nil_iff lexical placed.left

end Step

section Run

variable {r : Renaming} (lexical : ∀ rule ∈ r.rules, rule.Lexical)

include lexical

/-- **There is a first lexeme of the renamed line**, if there was one. -/
theorem Lexed.exists_renames (lexed : Lexed ls) (some : ls ≠ [])
    (placed : Edit.Placed r before edits)
    (marks : Edit.marksOf edits = ls.flatMap Lexeme.marks) :
    ∃ later rest l', Renames r edits later ls rest l' := by
  cases lexed with
  | nil => exact absurd rfl some
  | @cons l ls fits lexed =>
      rcases fits.formatted_or_tight with ⟨opening, body, closing, rfl⟩ | ⟨mark, ms, own, stuck⟩
      · obtain ⟨later, body', renames⟩ := exists_renames_fields lexical lexed fits placed marks
        exact ⟨later, ls, _, renames⟩
      · have first : Edit.marksOf edits = mark :: (ms ++ ls.flatMap Lexeme.marks) := by
          rw [marks, List.flatMap_cons, own, List.cons_append]
        rcases Edit.uncons lexical placed first with
          ⟨later, rfl, rest, copied⟩ | ⟨rule, later, rfl, -⟩
        · obtain ⟨last, renames⟩ := exists_renames_copy lexical fits lexed own stuck copied rest
          exact ⟨last, ls, l, renames⟩
        · obtain ⟨rest, renames⟩ := exists_renames_swap lexical fits lexed placed marks
          exact ⟨later, rest, _, renames⟩

/-- **Grammatical lexemes are renamed to grammatical lexemes.** -/
theorem Lexed.exists_renamed (lexed : Lexed ls) (placed : Edit.Placed r before edits)
    (marks : Edit.marksOf edits = ls.flatMap Lexeme.marks) :
    ∃ ls', Lexed ls' ∧ Renamed edits ls ls' := by
  -- a swap takes several lexemes at once, so the induction is on their number
  induction n : ls.length using Nat.strong_induction_on generalizing ls before edits with
  | _ n ih =>
      subst n
      by_cases empty : ls = []
      · subst empty
        obtain rfl := Edit.eq_nil_of_marksOf lexical placed marks
        exact ⟨[], .nil, .nil⟩
      · obtain ⟨later, rest, l', renames⟩ := lexed.exists_renames lexical empty placed marks
        obtain ⟨before', placedLater⟩ := renames.placed
        obtain ⟨ls', lexed', renamed⟩ :=
          ih rest.length renames.shorter renames.lexed placedLater renames.marks rfl
        refine ⟨l' :: ls', .cons (renames.fits ?_) lexed', renames.renamed renamed⟩
        rw [Lexeme.textOf_eq_marks, ← renames.marks, ← renamed.newText_eq]
        exact Edit.startAlike lexical placedLater

end Run

end Amalgam
