import Amalgam.Proofs.Identifiers

/-!
# A grammar for lexemes

The lexer says how a lexeme is found.  This module says what a lexeme is: `Lexeme.Fits` has
one rule for each kind of lexeme, with the shape of its text and what may not follow it.
No rule looks further than one character beyond its lexeme.  Hence what follows a lexeme may
be replaced by anything that starts alike (`Lexeme.Fits.congr`).

`Lexed` is the grammar of a list of lexemes, each of which fits in front of the texts of
the later ones.

## Main statements

* `Lexeme.Fits`, `Lexed` — the grammar
* `Lexeme.Fits.congr` — one character of lookahead
-/

namespace Amalgam

/-! ### What follows -/

/-- The text does not start with a character of the class. -/
def Stops (p : Char → Bool) (rest : List Char) : Prop :=
  ∀ c, rest.head? = some c → p c = false

variable {p : Char → Bool} {c : Char} {text rest : List Char}

theorem stops_nil (p : Char → Bool) : Stops p [] := by
  intro c head
  cases head

theorem stops_cons : Stops p (c :: rest) ↔ p c = false := by
  simp [Stops]

theorem Stops.append (first : Stops p text) (second : Stops p rest) :
    Stops p (text ++ rest) := by
  cases text with
  | nil => exact second
  | cons c cs =>
      rw [List.cons_append, stops_cons]
      exact stops_cons.mp first

theorem Stops.of_append (stops : Stops p (text ++ rest)) : Stops p text := by
  cases text with
  | nil => exact stops_nil p
  | cons c cs =>
      rw [List.cons_append, stops_cons] at stops
      exact stops_cons.mpr stops

theorem stops_dropWhile (p : Char → Bool) (cs : List Char) : Stops p (cs.dropWhile p) := by
  intro c head
  exact Bool.eq_false_iff.mpr fun holds => by
    have := List.head?_dropWhile_not p cs
    rw [head] at this
    simp [holds] at this

theorem takeWhile_of_stops {body : List Char}
    (inside : ∀ c ∈ body, p c = true) (stops : Stops p rest) :
    (body ++ rest).takeWhile p = body := by
  rw [List.takeWhile_append_of_pos inside]
  cases rest with
  | nil => simp
  | cons c rest => simp [stops_cons.mp stops]

theorem dropWhile_of_stops {body : List Char}
    (inside : ∀ c ∈ body, p c = true) (stops : Stops p rest) :
    (body ++ rest).dropWhile p = rest := by
  rw [List.dropWhile_append_of_pos inside]
  cases rest with
  | nil => rfl
  | cons c rest => simp [stops_cons.mp stops]

/-- **The texts start alike**: with the same character, or each with one that starts a
name. -/
def StartAlike (rest rest' : List Char) : Prop :=
  rest.head? = rest'.head? ∨
    ∃ c d, rest.head? = some c ∧ rest'.head? = some d ∧ isNameStart c = true ∧ isNameStart d = true

/-- A class that has all characters that start a name, or none, does not tell such texts
apart. -/
theorem StartAlike.stops {rest' : List Char} (alike : StartAlike rest rest')
    (level : ∀ c d, isNameStart c = true → isNameStart d = true → p c = p d)
    (stops : Stops p rest) : Stops p rest' := by
  intro c head
  rcases alike with same | ⟨d, e, head', head'', start, start'⟩
  · exact stops c (by rw [same, head])
  · rw [head] at head''
    cases head''
    rw [level c d start' start]
    exact stops d head'

theorem ne_of_isNameStart {c d : Char} (start : isNameStart c = true)
    (other : isNameStart d = false) : c ≠ d := by
  rintro rfl
  rw [start] at other
  cases other

theorem isLineBlank_of_isNameStart (start : isNameStart c = true) :
    isLineBlank c = false := by
  simp [isLineBlank, ne_of_isNameStart start (d := ' ') (by decide),
    ne_of_isNameStart start (d := '\t') (by decide),
    ne_of_isNameStart start (d := '\r') (by decide),
    ne_of_isNameStart start (d := '\x0c') (by decide)]

theorem isNameStart_of_isDigit (digit : c.isDigit = true) : isNameStart c = false := by
  -- digits come before all letters
  have high : c.val ≤ '9'.val := of_decide_eq_true (Bool.and_eq_true_iff.mp digit).2
  have noUpper : c.isUpper = false := decide_eq_false fun upper =>
    absurd (UInt32.le_trans upper.1 high) (by decide)
  have noLower : c.isLower = false := Bool.and_eq_false_imp.mpr fun lower =>
    absurd (UInt32.le_trans (of_decide_eq_true lower) high) (by decide)
  have noUnderscore : (c == '_') = false := by
    rw [beq_eq_false_iff_ne]
    rintro rfl
    cases digit
  change (c == '_' || (c.isUpper || c.isLower)) = false
  rw [noUnderscore, noUpper, noLower]
  rfl

/-! ### Quotes, strings and operators -/

/-- Is the character a quote? -/
def isQuote (c : Char) : Bool :=
  (Quote.ofChar? c).isSome

theorem isQuote_of_isNameChar (name : isNameChar c = true) : isQuote c = false := by
  rw [isQuote, Option.isSome_eq_false_iff, Option.isNone_iff_eq_none]
  unfold Quote.ofChar?
  rw [if_neg, if_neg]
  · rintro rfl
    exact absurd name (by decide)
  · rintro rfl
    exact absurd name (by decide)

/-- Letters that may stand in front of a quote. -/
structure IsStringPrefix (text : List Char) : Prop where
  letters : ∀ c ∈ text, isStringLetter c = true
  few : text.length ≤ 2

/-- Is the text the rest of a string's body?  `escaped` says whether a backslash is in front
of it. -/
def isBody (q : Char) : Bool → List Char → Bool
  | escaped, [] => !escaped
  | true, c :: cs => c != '\n' && isBody q false cs
  | false, c :: cs =>
    if c = '\\' then isBody q true cs else c != q && c != '\n' && isBody q false cs

/-- Does the character make a longer operator of one? -/
def lengthens (operator : List Char) (c : Char) : Bool :=
  longOperators.contains (operator ++ [c])

/-- No name starts in an operator. -/
theorem nameless_operator {operator : List Char} (long : operator ∈ longOperators) :
    ∀ c ∈ operator, isNameStart c = false := by
  have all : (longOperators.all fun text => text.all fun c => !isNameStart c) = true := by decide
  intro c member
  have each := List.all_eq_true.mp (List.all_eq_true.mp all operator long) c member
  simpa using each

theorem lengthens_of_isNameStart (operator : List Char) (start : isNameStart c = true) :
    lengthens operator c = false := by
  rw [lengthens, Bool.eq_false_iff, Ne, List.contains_iff_mem]
  intro member
  have nameless := nameless_operator member c (by simp)
  rw [start] at nameless
  cases nameless

/-! ### The grammar -/

/-- Is the character a token by itself, or the start of an operator? -/
def isSymbol (c : Char) : Bool :=
  !(isLineBlank c || c == '#' || isNameStart c || c.isDigit || isQuote c)

/-- Do the letters ask for a formatted string? -/
def isFormattedPrefix (letters : List Char) : Bool :=
  letters.any fun c => c == 'f' || c == 'F'

/-- **The lexeme fits in front of the text.** -/
inductive Lexeme.Fits : Lexeme → List Char → Prop where
  | blank {text rest : List Char} (some : text ≠ []) (blanks : ∀ c ∈ text, isLineBlank c = true)
      (stops : Stops isLineBlank rest) : Fits (.blank text) rest
  | comment {text rest : List Char} (inLine : ∀ c ∈ text, (c != '\n') = true)
      (stops : Stops (· != '\n') rest) : Fits (.literal ('#' :: text)) rest
  /-- A word takes all name characters, and is no prefix of a string. -/
  | word {text rest : List Char} (identifier : isIdentifierText text = true)
      (stops : Stops isNameChar rest) (noString : IsStringPrefix text → Stops isQuote rest) :
      Fits (.token (.ofWord text) text) rest
  | integer {c : Char} {text rest : List Char} (digit : c.isDigit = true)
      (names : ∀ d ∈ text, isNameChar d = true)
      (stops : Stops (fun d => isNameChar d || d == '.') rest) :
      Fits (.token .number (c :: text)) rest
  | decimal {c : Char} {whole fraction rest : List Char} (digit : c.isDigit = true)
      (names : ∀ d ∈ whole, isNameChar d = true) (names' : ∀ d ∈ fraction, isNameChar d = true)
      (stops : Stops isNameChar rest) :
      Fits (.token .number (c :: (whole ++ '.' :: fraction))) rest
  | operator {text rest : List Char} (long : text ∈ longOperators)
      (stops : Stops (lengthens text) rest) : Fits (.token .op text) rest
  | symbol {c : Char} {rest : List Char} (symbol : isSymbol c = true)
      (stops : Stops (lengthens [c]) rest) : Fits (.token (charKind c) [c]) rest
  /-- An empty string is no beginning of a triple quote. -/
  | string {letters body rest : List Char} {q : Quote} (isPrefix : IsStringPrefix letters)
      (plain : isFormattedPrefix letters = false) (body' : isBody q.char false body = true)
      (single : body = [] → Stops (· == q.char) rest) :
      Fits (.literal (letters ++ [q.char] ++ body ++ [q.char])) rest
  | formatted {letters body rest : List Char} {q : Quote} (isPrefix : IsStringPrefix letters)
      (formatted : isFormattedPrefix letters = true) (body' : isBody q.char false body = true)
      (single : body = [] → Stops (· == q.char) rest) :
      Fits (.formatted (letters ++ [q.char]) body [q.char]) rest
  | triple {letters body rest : List Char} {q : Quote} (isPrefix : IsStringPrefix letters)
      (closed : ∀ rest, closeTriple q.char (body ++ rest) = some (body, rest)) :
      Fits (.literal (letters ++ [q.char] ++ [q.char, q.char] ++ body)) rest
  | unclosed {letters body : List Char} {q : Quote} (isPrefix : IsStringPrefix letters)
      (unclosed : closeTriple q.char body = none) :
      Fits (.unclosed q (letters ++ [q.char] ++ [q.char, q.char] ++ body)) []

namespace Lexeme

theorem Fits.text_ne_nil {l : Lexeme} {rest : List Char} (fits : l.Fits rest) : l.text ≠ [] := by
  cases fits with
  | blank some => exact some
  | word identifier =>
      rintro rfl
      cases identifier
  | operator long =>
      have nonempty : ∀ operator ∈ longOperators, operator ≠ [] := by decide
      exact nonempty _ long
  | _ => simp [text]

/-- **One character of lookahead.** -/
theorem Fits.congr {l : Lexeme} {rest rest' : List Char} (fits : l.Fits rest)
    (alike : StartAlike rest rest') : l.Fits rest' := by
  have notQuote : ∀ (q : Quote) {c : Char}, isNameStart c = true → (c == q.char) = false := by
    intro q c start
    rw [beq_eq_false_iff_ne]
    exact ne_of_isNameStart start (by cases q <;> decide)
  have names : ∀ {p : Char → Bool}, (∀ c, isNameStart c = true → p c = true) →
      Stops p rest → Stops p rest' := by
    intro p all
    exact alike.stops fun c d start start' => by rw [all c start, all d start']
  have others : ∀ {p : Char → Bool}, (∀ c, isNameStart c = true → p c = false) →
      Stops p rest → Stops p rest' := by
    intro p none
    exact alike.stops fun c d start start' => by rw [none c start, none d start']
  cases fits with
  | blank some blanks stops =>
      exact .blank some blanks (others (fun _ => isLineBlank_of_isNameStart) stops)
  | comment inLine stops =>
      refine .comment inLine (names (fun c start => ?_) stops)
      rw [bne_iff_ne]
      exact ne_of_isNameStart start (by decide)
  | word identifier stops noString =>
      refine .word identifier (names (fun _ => isNameChar_of_isNameStart) stops) fun isPrefix => ?_
      exact others (fun _ start => isQuote_of_isNameChar (isNameChar_of_isNameStart start))
        (noString isPrefix)
  | integer digit names' stops =>
      refine .integer digit names' (names (fun c start => ?_) stops)
      rw [isNameChar_of_isNameStart start, Bool.true_or]
  | decimal digit whole fraction stops =>
      exact .decimal digit whole fraction (names (fun _ => isNameChar_of_isNameStart) stops)
  | operator long stops =>
      exact .operator long (others (fun _ => lengthens_of_isNameStart _) stops)
  | symbol isSymbol stops =>
      exact .symbol isSymbol (others (fun _ => lengthens_of_isNameStart _) stops)
  | string isPrefix plain body single =>
      exact .string isPrefix plain body fun empty => others (fun _ => notQuote _) (single empty)
  | formatted isPrefix formatted body single =>
      exact .formatted isPrefix formatted body fun empty =>
        others (fun _ => notQuote _) (single empty)
  | triple isPrefix closed => exact .triple isPrefix closed
  | unclosed isPrefix unclosed =>
      rcases alike with same | ⟨c, d, head, -⟩
      · rw [List.head?_eq_none_iff.mp same.symm]
        exact .unclosed isPrefix unclosed
      · cases head

end Lexeme

/-! ### Lists of lexemes -/

/-- The text of a list of lexemes. -/
def Lexeme.textOf (ls : List Lexeme) : List Char :=
  ls.flatMap Lexeme.text

/-- **The list is grammatical**: each lexeme fits in front of the text of the later ones. -/
inductive Lexed : List Lexeme → Prop where
  | nil : Lexed []
  | cons {l : Lexeme} {ls : List Lexeme} (fits : l.Fits (Lexeme.textOf ls)) (later : Lexed ls) :
      Lexed (l :: ls)

end Amalgam
