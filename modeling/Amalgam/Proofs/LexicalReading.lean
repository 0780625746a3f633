import Amalgam.Proofs.LexicalGrammar

/-!
# The lexer and the grammar of lexemes agree

Two halves.  **A grammatical list of lexemes is read back from its text**: at each rule of
the grammar, the lexer finds that lexeme, since what follows cannot make it a longer one.
**What the lexer reads is grammatical**, on lines without stray quotes, that is, lines none of
whose tokens holds a quote character.  A stray quote reaches as far as its line looks like a
string, so what follows it matters beyond the first character.

## Main statements

* `Lexeme.next_of_fits`, `lexemes_append_of_fits`, `lexemes_of_lexed` — what is grammatical is
  read back
* `Opening.next_fits_or_stray` — a string fits, or it is not closed
* `Opening.stray_quoted` — a string that is not closed leaves a token with a quote
* `lexed_of_unquoted` — what is read is grammatical
-/

namespace Amalgam

/-! ### Openings and bodies -/

theorem Quote.char_cases (q : Quote) : q.char = '\'' ∨ q.char = '"' := by
  cases q with
  | single => exact Or.inl rfl
  | double => exact Or.inr rfl

theorem Quote.ofChar?_char (q : Quote) : Quote.ofChar? q.char = some q := by
  cases q <;> rfl

variable {c : Char} {rest cs body : List Char}

theorem Quote.char_of_ofChar? {q : Quote} (quote : Quote.ofChar? c = some q) :
    c = q.char := by
  unfold Quote.ofChar? at quote
  split at quote
  next single =>
    cases quote
    exact single
  next =>
    split at quote
    next double =>
      cases quote
      exact double
    next => cases quote

theorem isQuote_char (q : Quote) : isQuote q.char = true := by
  cases q <;> rfl

theorem not_isStringLetter_char (q : Quote) : isStringLetter q.char = false := by
  cases q <;> decide

theorem isStringPrefix_nil : IsStringPrefix [] :=
  ⟨by simp, by simp⟩

theorem opening?_append {letters : List Char} (isPrefix : IsStringPrefix letters) (q : Quote)
    (rest : List Char) : opening? (letters ++ q.char :: rest) = some ⟨letters, q, rest⟩ := by
  have stops : Stops isStringLetter (q.char :: rest) := stops_cons.mpr (not_isStringLetter_char q)
  simp only [opening?, takeWhile_of_stops isPrefix.letters stops,
    dropWhile_of_stops isPrefix.letters stops, if_pos isPrefix.few, Quote.ofChar?_char,
    Option.map_some]

/-- A string starts exactly at a prefix and a quote. -/
theorem opening?_eq_some {o : Opening} (opens : opening? cs = some o) :
    cs = o.letters ++ o.quote.char :: o.rest ∧ IsStringPrefix o.letters := by
  have whole := List.takeWhile_append_dropWhile (p := isStringLetter) (l := cs)
  simp only [opening?] at opens
  split at opens
  next c rest chars =>
    split at opens
    next few =>
      obtain ⟨q, quote, rfl⟩ := Option.map_eq_some_iff.mp opens
      rw [chars, Quote.char_of_ofChar? quote] at whole
      exact ⟨whole.symm, fun c => List.mem_takeWhile_imp, few⟩
    next => cases opens
  next => cases opens

/-- No string starts at a character that is neither letter nor quote. -/
theorem opening?_cons_of_not (cs : List Char) (letter : isStringLetter c = false)
    (quote : isQuote c = false) : opening? (c :: cs) = none := by
  rw [isQuote, Option.isSome_eq_false_iff, Option.isNone_iff_eq_none] at quote
  simp [opening?, letter, quote]

theorem stringBody_spec (q : Char) (cs : List Char) :
    isBody q false (stringBody q cs).1 = true ∧
      cs = (stringBody q cs).1 ++ (stringBody q cs).2 := by
  fun_induction stringBody q cs with
  | case1 => exact ⟨rfl, rfl⟩
  | case2 c cs other body rest found ih =>
      rw [found] at ih
      refine ⟨?_, by rw [ih.2]; rfl⟩
      simp [isBody, other, ih.1]
  | case3 => exact ⟨rfl, rfl⟩
  | case4 c cs _ go body rest found ih =>
      rw [found] at ih
      refine ⟨?_, by rw [ih.2]; rfl⟩
      simp only [not_or] at go
      simp [isBody, go.1, go.2.1, go.2.2, ih.1]
  | case5 => exact ⟨rfl, rfl⟩

theorem stringBody_append {q : Char} (plain : q ≠ '\\') (isBody' : isBody q false body = true)
    (rest : List Char) :
    stringBody q (body ++ q :: rest) = (body, q :: rest) := by
  -- an escape takes two characters, so the induction is on the length
  induction n : body.length using Nat.strong_induction_on generalizing body with
  | _ n ih =>
      cases body with
      | nil =>
          rw [List.nil_append, stringBody.eq_def]
          split
          next same =>
            cases same
            exact absurd rfl plain
          next same =>
            cases same
            rw [if_pos (Or.inl rfl)]
          next same => cases same
      | cons c cs =>
          subst n
          by_cases backslash : c = '\\'
          · subst backslash
            cases cs with
            | nil => simp [isBody] at isBody'
            | cons d ds =>
                simp only [isBody, if_true, Bool.and_eq_true, bne_iff_ne] at isBody'
                have later := ih ds.length (by simp only [List.length_cons]; omega) isBody'.2 rfl
                simp [stringBody, isBody'.1, later]
          · simp only [isBody, if_neg backslash, Bool.and_eq_true, bne_iff_ne] at isBody'
            have later := ih cs.length (by simp) isBody'.2 rfl
            simp [stringBody, backslash, isBody'.1.1, isBody'.1.2, later]

/-- Where a triple-quoted string is closed depends on its text alone. -/
theorem closeTriple_eq_some {q : Char} (closed : closeTriple q cs = some (body, rest)) :
    cs = body ++ rest ∧ 3 ≤ body.length ∧
      ∀ rest', closeTriple q (body ++ rest') = some (body, rest') := by
  fun_induction closeTriple q cs generalizing body rest with
  | case1 c cs ih =>
      obtain ⟨⟨body', rest'⟩, found, same⟩ := Option.map_eq_some_iff.mp closed
      cases same
      obtain ⟨text, long, any⟩ := ih found
      refine ⟨by rw [text]; rfl, by simp only [List.length_cons]; omega, fun other => ?_⟩
      simp [closeTriple, any other]
  | case2 => cases closed
  | case3 c cs _ plain quotes =>
      cases closed
      obtain ⟨after, text⟩ := List.isPrefixOf_iff_prefix.mp quotes
      refine ⟨?_, Nat.le_refl 3, fun other => ?_⟩
      · rw [← text]
        rfl
      · have first : q ≠ '\\' := by
          obtain ⟨rfl, -⟩ := List.cons.inj text
          exact plain
        simp [closeTriple, first]
  | case4 c cs notEscape plain quotes ih =>
      obtain ⟨⟨body', rest'⟩, found, same⟩ := Option.map_eq_some_iff.mp closed
      cases same
      obtain ⟨text, long, any⟩ := ih found
      refine ⟨by rw [text]; rfl, by simp only [List.length_cons]; omega, fun other => ?_⟩
      -- the body is long enough to hold the three characters that are looked at
      have notQuotes : ¬ [q, q, q].isPrefixOf (c :: (body' ++ other)) = true := by
        intro isPrefix
        refine quotes (List.isPrefixOf_iff_prefix.mpr ?_)
        have inside : [q, q, q] <+: c :: body' :=
          List.prefix_of_prefix_length_le (List.isPrefixOf_iff_prefix.mp isPrefix)
            (List.prefix_append (c :: body') other) (Nat.le_succ_of_le long)
        rw [text]
        exact inside.trans (List.prefix_append (c :: body') _)
      simp [closeTriple, plain, notQuotes, any other]
  | case5 => cases closed

/-! ### Operators -/

/-- The operators stand in an order in which none is a beginning of a later one. -/
theorem longOperators_pairwise :
    longOperators.Pairwise fun first second => first.isPrefixOf second = false := by
  decide

/-- **The operator that is found is the one that is not continued.** -/
theorem find?_longOperators_append {operator : List Char} (long : operator ∈ longOperators)
    (stops : Stops (lengthens operator) rest) :
    longOperators.find? (·.isPrefixOf (operator ++ rest)) = some operator := by
  have continued : ∀ first ∈ longOperators, ∀ second ∈ longOperators,
      first.isPrefixOf second = true → first = second ∨ second.length = first.length + 1 := by
    decide
  obtain ⟨before, after, split⟩ := List.append_of_mem long
  refine List.find?_eq_some_iff_append.mpr
    ⟨List.isPrefixOf_iff_prefix.mpr (List.prefix_append _ _), before, after, split, ?_⟩
  intro other earlier
  have member : other ∈ longOperators := by rw [split]; exact List.mem_append_left _ earlier
  have apart : other.isPrefixOf operator = false := by
    have pairwise := longOperators_pairwise
    rw [split, List.pairwise_append] at pairwise
    exact pairwise.2.2 other earlier operator List.mem_cons_self
  rw [Bool.not_eq_true', Bool.eq_false_iff]
  intro isPrefix
  rcases List.prefix_or_prefix_of_prefix (List.isPrefixOf_iff_prefix.mp isPrefix)
    (List.prefix_append operator rest) with within | beyond
  · rw [List.isPrefixOf_iff_prefix.mpr within] at apart
    cases apart
  · rcases continued operator long other member (List.isPrefixOf_iff_prefix.mpr beyond) with
      rfl | longer
    · rw [List.isPrefixOf_iff_prefix.mpr List.prefix_rfl] at apart
      cases apart
    · -- the longer operator is this one and the next character
      obtain ⟨more, rfl⟩ := beyond
      obtain ⟨c, rfl⟩ : ∃ c, more = [c] := List.length_eq_one_iff.mp (by simpa using longer)
      obtain ⟨later, text⟩ := (List.prefix_append_right_inj operator).mp
        (List.isPrefixOf_iff_prefix.mp isPrefix)
      have next := stops c (by rw [← text]; rfl)
      rw [lengthens, List.contains_iff_mem.mpr member] at next
      cases next

/-- What follows the operator that is found does not continue it. -/
theorem stops_of_find?_longOperators {operator : List Char}
    (found : longOperators.find? (·.isPrefixOf (operator ++ rest)) = some operator) :
    Stops (lengthens operator) rest := by
  intro c head
  obtain ⟨rest, rfl⟩ := List.head?_eq_some_iff.mp head
  rw [Bool.eq_false_iff]
  intro longer
  have member : operator ++ [c] ∈ longOperators := List.contains_iff_mem.mp longer
  have isPrefix : (operator ++ [c]).isPrefixOf (operator ++ c :: rest) = true :=
    List.isPrefixOf_iff_prefix.mpr ⟨rest, by simp⟩
  obtain ⟨-, before, after, split, earlier⟩ := List.find?_eq_some_iff_append.mp found
  have pairwise := longOperators_pairwise
  rw [split] at member pairwise
  rcases List.mem_append.mp member with first | last
  · have refused := earlier _ first
    rw [isPrefix] at refused
    cases refused
  · rcases List.mem_cons.mp last with same | last
    · simp at same
    · have apart := List.rel_of_pairwise_cons (List.pairwise_append.mp pairwise).2.1 last
      rw [List.isPrefixOf_iff_prefix.mpr (List.prefix_append _ _)] at apart
      cases apart

/-- No operator starts at a character that is not continued. -/
theorem find?_longOperators_cons (stops : Stops (lengthens [c]) rest) :
    longOperators.find? (·.isPrefixOf (c :: rest)) = none := by
  have begins : ∀ operator ∈ longOperators,
      2 ≤ operator.length ∧ operator.take 2 ∈ longOperators := by decide
  refine List.find?_eq_none.mpr fun operator member isPrefix => ?_
  obtain ⟨long, short⟩ := begins operator member
  obtain ⟨after, text⟩ := List.isPrefixOf_iff_prefix.mp isPrefix
  match operator, long with
  | first :: second :: more, _ =>
      obtain ⟨rfl, behind⟩ := List.cons.inj text
      have next := stops second (by rw [← behind]; rfl)
      have longer : lengthens [first] second = true := List.contains_iff_mem.mpr short
      rw [longer] at next
      cases next

/-! ### What fits is read -/

theorem Opening.next_single {o : Opening} (text : o.rest = body ++ o.quote.char :: rest)
    (isBody' : isBody o.quote.char false body = true)
    (single : body = [] → Stops (· == o.quote.char) rest) :
    o.next = o.nextSingle body (o.quote.char :: rest) := by
  have plain : o.quote.char ≠ '\\' := by
    rcases o.quote.char_cases with same | same <;> rw [same] <;> decide
  have notTriple : ¬ [o.quote.char, o.quote.char].isPrefixOf o.rest = true := by
    intro isPrefix
    obtain ⟨more, triple⟩ := List.isPrefixOf_iff_prefix.mp isPrefix
    rw [text] at triple
    cases body with
    | nil =>
        have next := single rfl o.quote.char (by rw [← (List.cons.inj triple).2]; rfl)
        simp at next
    | cons c cs =>
        obtain ⟨rfl, -⟩ := List.cons.inj triple
        simp [isBody, plain] at isBody'
  rw [Opening.next, if_neg notTriple, text, stringBody_append plain isBody']

/-- The first character of a text without letters and quote in front decides. -/
theorem Lexeme.next_eq_nextPlain (cs : List Char) (letter : isStringLetter c = false)
    (quote : isQuote c = false) : Lexeme.next c cs = Lexeme.nextPlain c cs := by
  rw [Lexeme.next, opening?_cons_of_not cs letter quote]

theorem isStringLetter_of_not (start : isNameStart c = false) :
    isStringLetter c = false := by
  rw [Bool.eq_false_iff]
  intro letter
  rw [isNameStart_of_isStringLetter letter] at start
  cases start

/-- A word in front of a text that does not make it a string. -/
theorem opening?_word {text : List Char} (identifier : isIdentifierText text = true)
    (stops : Stops isNameChar rest) (noString : IsStringPrefix text → Stops isQuote rest) :
    opening? (text ++ rest) = none := by
  cases opens : opening? (text ++ rest) with
  | none => rfl
  | some o =>
      obtain ⟨shape, isPrefix⟩ := opening?_eq_some opens
      have quoteStops : Stops isNameChar (o.quote.char :: o.rest) := by
        rw [stops_cons]
        cases o.quote <;> decide
      have names : ∀ c ∈ o.letters, isNameChar c = true := fun c member =>
        isNameChar_of_isNameStart (isNameStart_of_isStringLetter (isPrefix.letters c member))
      -- the letters are all name characters that there are, and so is the word
      have same : text = o.letters := by
        rw [← takeWhile_of_stops (isIdentifierText.all identifier) stops, shape,
          takeWhile_of_stops names quoteStops]
      rw [← same, List.append_cancel_left_eq] at shape
      have next := noString (same ▸ isPrefix) o.quote.char (by rw [shape]; rfl)
      rw [isQuote_char] at next
      cases next

/-- At a symbol, an operator is looked for. -/
theorem Lexeme.next_symbol (symbol : isSymbol c = true) (cs : List Char) :
    (∀ operator, longOperators.find? (·.isPrefixOf (c :: cs)) = some operator →
      next c cs = (.token .op operator, (c :: cs).drop operator.length)) ∧
    (longOperators.find? (·.isPrefixOf (c :: cs)) = none →
      next c cs = (.token (charKind c) [c], cs)) := by
  simp only [isSymbol, Bool.not_eq_true', Bool.or_eq_false_iff, beq_eq_false_iff_ne] at symbol
  obtain ⟨⟨⟨⟨blank, comment⟩, start⟩, digit⟩, quote⟩ := symbol
  rw [next_eq_nextPlain cs (isStringLetter_of_not start) quote, nextPlain, if_neg (by simp [blank]),
    if_neg comment, if_neg (by simp [start]), if_neg (by simp [digit])]
  exact ⟨fun operator found => by rw [found], fun none => by rw [none]⟩

theorem Lexeme.next_digit (digit : c.isDigit = true) (cs : List Char) :
    next c cs = (.token .number (c :: (numberRest cs).1), (numberRest cs).2) := by
  have start := isNameStart_of_isDigit digit
  have blank : isLineBlank c = false := by
    rw [Bool.eq_false_iff]
    intro blank
    simp only [isLineBlank, Bool.or_eq_true, beq_iff_eq] at blank
    rcases blank with ((rfl | rfl) | rfl) | rfl <;> cases digit
  have comment : c ≠ '#' := by
    rintro rfl
    cases digit
  have name : isNameChar c = true := by simp [isNameChar, Char.isAlphanum, digit]
  rw [next_eq_nextPlain cs (isStringLetter_of_not start) (isQuote_of_isNameChar name), nextPlain,
    if_neg (by simp [blank]), if_neg comment, if_neg (by simp [start]), if_pos digit]

/-- A string starts with its letters and quote. -/
theorem Lexeme.next_opening {letters : List Char} (isPrefix : IsStringPrefix letters) {q : Quote}
    {more : List Char} (text : letters ++ [q.char] ++ more = c :: cs) :
    next c cs = Opening.next ⟨letters, q, more⟩ := by
  have shape : letters ++ [q.char] ++ more = letters ++ q.char :: more := by simp
  rw [next, ← text, shape, opening?_append isPrefix]

/-- **A lexeme that fits is the one that is read.** -/
theorem Lexeme.next_of_fits {l : Lexeme} (fits : l.Fits rest) (text : l.text ++ rest = c :: cs) :
    Lexeme.next c cs = (l, rest) := by
  cases fits with
  | @blank blanks _ some all stops =>
      cases blanks with
      | nil => exact absurd rfl some
      | cons d ds =>
          obtain ⟨rfl, rfl⟩ := List.cons.inj text
          have blank := all d List.mem_cons_self
          have inside : ∀ e ∈ ds, isLineBlank e = true :=
            fun e member => all e (List.mem_cons_of_mem _ member)
          have other : isStringLetter d = false ∧ isQuote d = false := by
            simp only [isLineBlank, Bool.or_eq_true, beq_iff_eq] at blank
            rcases blank with ((rfl | rfl) | rfl) | rfl <;> decide
          rw [next_eq_nextPlain _ other.1 other.2, nextPlain, if_pos blank]
          change (Lexeme.blank (d :: (ds ++ rest).takeWhile isLineBlank),
            (ds ++ rest).dropWhile isLineBlank) = _
          rw [takeWhile_of_stops inside stops, dropWhile_of_stops inside stops]
  | @comment line _ inLine stops =>
      obtain ⟨rfl, rfl⟩ := List.cons.inj text
      rw [next_eq_nextPlain _ (by decide) (by decide), nextPlain, if_neg (by decide), if_pos rfl]
      change (Lexeme.literal ('#' :: (line ++ rest).takeWhile (· != '\n')),
        (line ++ rest).dropWhile (· != '\n')) = _
      rw [takeWhile_of_stops inLine stops, dropWhile_of_stops inLine stops]
  | @word word _ identifier stops noString =>
      have opens := opening?_word identifier stops noString
      rw [show word ++ rest = c :: cs from text] at opens
      cases word with
      | nil => cases identifier
      | cons d ds =>
          obtain ⟨rfl, rfl⟩ := List.cons.inj text
          have inside : ∀ e ∈ ds, isNameChar e = true := fun e member =>
            isIdentifierText.all identifier e (List.mem_cons_of_mem _ member)
          rw [isIdentifierText, Bool.and_eq_true] at identifier
          rw [next, opens]
          change nextPlain d (ds ++ rest) = _
          rw [nextPlain_of_isNameStart identifier.1, takeWhile_of_stops inside stops,
            dropWhile_of_stops inside stops]
  | @integer d ds _ digit names stops =>
      obtain ⟨rfl, rfl⟩ := List.cons.inj text
      have inside : Stops isNameChar rest := by
        intro e head
        exact (Bool.or_eq_false_iff.mp (stops e head)).1
      have number : numberRest (ds ++ rest) = (ds, rest) := by
        simp only [numberRest, takeWhile_of_stops names inside, dropWhile_of_stops names inside]
        split
        next dot => simpa using stops '.' rfl
        next => rfl
      change next d (ds ++ rest) = _
      rw [next_digit digit, number]
  | @decimal d whole fraction _ digit names names' stops =>
      obtain ⟨rfl, rfl⟩ := List.cons.inj text
      have point : Stops isNameChar ('.' :: (fraction ++ rest)) := stops_cons.mpr (by decide)
      have number : numberRest (whole ++ '.' :: (fraction ++ rest)) =
          (whole ++ '.' :: fraction, rest) := by
        simp only [numberRest, takeWhile_of_stops names point, dropWhile_of_stops names point,
          takeWhile_of_stops names' stops, dropWhile_of_stops names' stops]
      have shape : (whole ++ '.' :: fraction).append rest = whole ++ '.' :: (fraction ++ rest) := by
        simp
      rw [shape, next_digit digit, number]
  | @operator op _ long stops =>
      have symbols : ∀ operator ∈ longOperators, operator.head?.all isSymbol := by decide
      have found := find?_longOperators_append long stops
      rw [show op ++ rest = c :: cs from text] at found
      have symbol : isSymbol c = true := by
        have first := symbols op long
        cases op with
        | nil => exact absurd long (by decide)
        | cons d ds =>
            obtain ⟨rfl, -⟩ := List.cons.inj text
            exact first
      rw [(next_symbol symbol cs).1 op found, ← text]
      simp [Lexeme.text]
  | symbol isSymbol stops =>
      obtain ⟨rfl, rfl⟩ := List.cons.inj text
      exact (next_symbol isSymbol _).2 (find?_longOperators_cons stops)
  | @string letters body _ q isPrefix plain isBody' single =>
      have more : letters ++ [q.char] ++ (body ++ q.char :: rest) = c :: cs := by
        rw [← text]
        simp [Lexeme.text]
      rw [next_opening isPrefix more, Opening.next_single rfl isBody' single, Opening.nextSingle,
        if_neg (by simp), if_neg (by rw [Opening.isFormatted]; exact Bool.eq_false_iff.mp plain)]
      rfl
  | @formatted letters body _ q isPrefix formatted isBody' single =>
      have more : letters ++ [q.char] ++ (body ++ q.char :: rest) = c :: cs := by
        rw [← text]
        simp [Lexeme.text]
      rw [next_opening isPrefix more, Opening.next_single rfl isBody' single, Opening.nextSingle,
        if_neg (by simp), if_pos (by rw [Opening.isFormatted]; exact formatted)]
      rfl
  | @triple letters body _ q isPrefix closed =>
      have more : letters ++ [q.char] ++ (q.char :: q.char :: (body ++ rest)) = c :: cs := by
        rw [← text]
        simp [Lexeme.text]
      rw [next_opening isPrefix more, Opening.next, if_pos (by simp), Opening.nextTriple]
      simp only [List.drop_succ_cons, List.drop_zero, closed rest]
      rfl
  | @unclosed letters body q isPrefix unclosed =>
      have more : letters ++ [q.char] ++ (q.char :: q.char :: body) = c :: cs := by
        rw [← text]
        simp [Lexeme.text]
      rw [next_opening isPrefix more, Opening.next, if_pos (by simp), Opening.nextTriple]
      simp only [List.drop_succ_cons, List.drop_zero, unclosed]
      rfl

/-! ### What is read fits -/

/-- The lexeme is no token with a quote in it. -/
def Lexeme.Unquoted : Lexeme → Prop
  | .token _ text => ∀ q : Quote, q.char ∉ text
  | _ => True

section Stray

variable {o : Opening} (notTriple : ¬ [o.quote.char, o.quote.char].isPrefixOf o.rest = true)
  (notClosed : (stringBody o.quote.char o.rest).2.head? ≠ some o.quote.char)

include notTriple notClosed

theorem Opening.next_stray : o.next =
    o.stray (stringBody o.quote.char o.rest).1 (stringBody o.quote.char o.rest).2 := by
  rw [Opening.next, if_neg notTriple, Opening.nextSingle.eq_def]
  split
  next after => rw [after]
  next c rest after =>
    rw [after] at notClosed ⊢
    rw [if_pos fun same => notClosed (by rw [same]; rfl)]

/-- **A string that is not closed leaves a token with a quote.** -/
theorem Opening.stray_quoted : ∃ l, (l = o.next.1 ∨ l ∈ lexemes o.next.2) ∧ ¬ l.Unquoted := by
  have next := Opening.next_stray notTriple notClosed
  by_cases empty : (stringBody o.quote.char o.rest).1 = []
  · by_cases letters : o.letters = []
    · refine ⟨_, Or.inl rfl, ?_⟩
      rw [next, Opening.stray, if_neg (by simp [empty]), if_neg (by simp [letters])]
      exact fun unquoted => unquoted o.quote List.mem_cons_self
    · -- the letters are a word, and the quote is read next, again as a stray one
      have rest : o.rest = (stringBody o.quote.char o.rest).2 := by
        have text := (stringBody_spec o.quote.char o.rest).2
        rw [empty] at text
        exact text
      have bare : Opening.next ⟨[], o.quote, o.rest⟩ = (.token .op [o.quote.char], o.rest) := by
        rw [Opening.next_stray (o := ⟨[], o.quote, o.rest⟩) notTriple notClosed, Opening.stray,
          if_neg (by simp [empty]), if_neg (by simp), ← rest]
      have again : Lexeme.next o.quote.char o.rest = (.token .op [o.quote.char], o.rest) := by
        rw [← bare]
        exact Lexeme.next_opening isStringPrefix_nil rfl
      refine ⟨.token .op [o.quote.char], Or.inr ?_, fun unquoted =>
        unquoted o.quote List.mem_cons_self⟩
      rw [next, Opening.stray, if_neg (by simp [empty]), if_pos letters, ← rest]
      rw [lexemes, again]
      exact List.mem_cons_self
  · refine ⟨_, Or.inl rfl, ?_⟩
    rw [next, Opening.stray, if_pos empty]
    exact fun unquoted => unquoted o.quote (by simp [Opening.text])

end Stray

/-- **A string fits, or it is not closed.** -/
theorem Opening.next_fits_or_stray {o : Opening} (isPrefix : IsStringPrefix o.letters) :
    (o.next.1.text ++ o.next.2 = o.letters ++ o.quote.char :: o.rest ∧ o.next.1.Fits o.next.2) ∨
    (¬ [o.quote.char, o.quote.char].isPrefixOf o.rest = true ∧
      (stringBody o.quote.char o.rest).2.head? ≠ some o.quote.char) := by
  by_cases triple : [o.quote.char, o.quote.char].isPrefixOf o.rest = true
  · left
    obtain ⟨more, shape⟩ := List.isPrefixOf_iff_prefix.mp triple
    have dropped : o.rest.drop 2 = more := by rw [← shape]; rfl
    rw [Opening.next, if_pos triple, Opening.nextTriple, dropped]
    split
    next body after closed =>
      obtain ⟨text, -, any⟩ := closeTriple_eq_some closed
      refine ⟨?_, .triple isPrefix any⟩
      rw [← shape, text]
      simp [Lexeme.text, Opening.text]
    next unclosed =>
      refine ⟨?_, .unclosed isPrefix unclosed⟩
      rw [← shape]
      simp [Lexeme.text, Opening.text]
  · by_cases closed : (stringBody o.quote.char o.rest).2.head? = some o.quote.char
    · left
      obtain ⟨body, rest, text, isBody'⟩ : ∃ body rest, o.rest = body ++ o.quote.char :: rest ∧
          isBody o.quote.char false body = true := by
        obtain ⟨rest, after⟩ := List.head?_eq_some_iff.mp closed
        obtain ⟨isBody', text⟩ := stringBody_spec o.quote.char o.rest
        rw [after] at text
        exact ⟨_, rest, text, isBody'⟩
      have single : body = [] → Stops (· == o.quote.char) rest := by
        intro empty c head
        obtain ⟨more, rfl⟩ := List.head?_eq_some_iff.mp head
        rw [beq_eq_false_iff_ne]
        rintro rfl
        rw [empty] at text
        exact triple (by rw [text]; simp)
      rw [Opening.next_single text isBody' single, Opening.nextSingle, if_neg (by simp), text]
      split
      next formatted =>
        exact ⟨by simp [Lexeme.text, Opening.text], .formatted isPrefix formatted isBody' single⟩
      next plain =>
        exact ⟨by simp [Lexeme.text, Opening.text],
          .string isPrefix (Bool.eq_false_iff.mpr plain) isBody' single⟩
    · exact Or.inr ⟨triple, closed⟩

/-- A string that leaves no token with a quote fits. -/
theorem Opening.next_fits {o : Opening} (isPrefix : IsStringPrefix o.letters)
    (unquoted : ∀ l, (l = o.next.1 ∨ l ∈ lexemes o.next.2) → l.Unquoted) :
    o.next.1.text ++ o.next.2 = o.letters ++ o.quote.char :: o.rest ∧ o.next.1.Fits o.next.2 := by
  rcases Opening.next_fits_or_stray isPrefix with fits | ⟨notTriple, notClosed⟩
  · exact fits
  · obtain ⟨l, member, quoted⟩ := Opening.stray_quoted notTriple notClosed
    exact absurd (unquoted l member) quoted

theorem Lexeme.word_fits (start : isNameStart c = true) (opens : opening? (c :: cs) = none) :
    (token (.ofWord (c :: cs.takeWhile isNameChar)) (c :: cs.takeWhile isNameChar)).Fits
      (cs.dropWhile isNameChar) := by
  have identifier : isIdentifierText (c :: cs.takeWhile isNameChar) = true := by
    rw [isIdentifierText, Bool.and_eq_true, List.all_eq_true]
    exact ⟨start, fun d => List.mem_takeWhile_imp⟩
  refine .word identifier (stops_dropWhile _ _) fun isPrefix d head => ?_
  rw [Bool.eq_false_iff]
  intro quote
  -- the word and the quote would start a string
  obtain ⟨q, isQuote'⟩ := Option.isSome_iff_exists.mp quote
  obtain ⟨more, rest⟩ := List.head?_eq_some_iff.mp head
  have whole : c :: cs = (c :: cs.takeWhile isNameChar) ++ q.char :: more := by
    rw [← Quote.char_of_ofChar? isQuote', ← rest, List.cons_append,
      List.takeWhile_append_dropWhile]
  rw [whole, opening?_append isPrefix] at opens
  cases opens

theorem Lexeme.number_fits (digit : c.isDigit = true) (cs : List Char) :
    (numberRest cs).1 ++ (numberRest cs).2 = cs ∧
      (token .number (c :: (numberRest cs).1)).Fits (numberRest cs).2 := by
  have whole := List.takeWhile_append_dropWhile (p := isNameChar) (l := cs)
  have names : ∀ d ∈ cs.takeWhile isNameChar, isNameChar d = true := fun d =>
    List.mem_takeWhile_imp
  have stops := stops_dropWhile isNameChar cs
  simp only [numberRest]
  split
  next rest point =>
    rw [point] at whole
    refine ⟨?_, .decimal digit names (fun d => List.mem_takeWhile_imp) (stops_dropWhile _ _)⟩
    rw [List.append_assoc, List.cons_append, List.takeWhile_append_dropWhile, whole]
  next noPoint =>
    refine ⟨whole, .integer digit names fun d head => ?_⟩
    refine Bool.or_eq_false_iff.mpr ⟨stops d head, beq_eq_false_iff_ne.mpr ?_⟩
    rintro rfl
    obtain ⟨rest, point⟩ := List.head?_eq_some_iff.mp head
    exact noPoint rest point

theorem Lexeme.symbol_fits (symbol : isSymbol c = true) (cs : List Char) :
    (next c cs).1.text ++ (next c cs).2 = c :: cs ∧ (next c cs).1.Fits (next c cs).2 := by
  cases found : longOperators.find? (·.isPrefixOf (c :: cs)) with
  | none =>
      rw [(next_symbol symbol cs).2 found]
      refine ⟨rfl, .symbol symbol fun d head => ?_⟩
      obtain ⟨more, rfl⟩ := List.head?_eq_some_iff.mp head
      rw [Bool.eq_false_iff]
      intro longer
      refine List.find?_eq_none.mp found ([c] ++ [d]) (List.contains_iff_mem.mp longer) ?_
      simp
  | some operator =>
      rw [(next_symbol symbol cs).1 operator found]
      have isPrefix : operator.isPrefixOf (c :: cs) = true :=
        List.find?_some (p := (List.isPrefixOf · (c :: cs))) found
      obtain ⟨rest, text⟩ := List.isPrefixOf_iff_prefix.mp isPrefix
      have dropped : (c :: cs).drop operator.length = rest := by rw [← text, List.drop_left]
      rw [dropped]
      rw [← text] at found
      exact ⟨text, .operator (List.mem_of_find?_eq_some found) (stops_of_find?_longOperators found)⟩

/-- Where no string starts, what is read fits. -/
theorem Lexeme.next_fits_of_plain (opens : opening? (c :: cs) = none) :
    (next c cs).1.text ++ (next c cs).2 = c :: cs ∧ (next c cs).1.Fits (next c cs).2 := by
  have plain : next c cs = nextPlain c cs := by rw [next, opens]
  by_cases blank : isLineBlank c = true
  · rw [plain, nextPlain, if_pos blank]
    refine ⟨congrArg (c :: ·) List.takeWhile_append_dropWhile,
      .blank (by simp) (fun d member => ?_) (stops_dropWhile _ _)⟩
    rcases List.mem_cons.mp member with rfl | later
    · exact blank
    · exact List.mem_takeWhile_imp later
  · by_cases comment : c = '#'
    · subst comment
      rw [plain, nextPlain, if_neg blank, if_pos rfl]
      exact ⟨congrArg ('#' :: ·) List.takeWhile_append_dropWhile,
        .comment (fun d => List.mem_takeWhile_imp) (stops_dropWhile _ _)⟩
    · by_cases start : isNameStart c = true
      · rw [plain, nextPlain_of_isNameStart start]
        exact ⟨congrArg (c :: ·) List.takeWhile_append_dropWhile, word_fits start opens⟩
      · by_cases digit : c.isDigit = true
        · obtain ⟨text, fits⟩ := number_fits digit cs
          rw [next_digit digit]
          exact ⟨congrArg (c :: ·) text, fits⟩
        · have quote : isQuote c = false := by
            rw [Bool.eq_false_iff]
            intro quote
            obtain ⟨q, isQuote'⟩ := Option.isSome_iff_exists.mp quote
            have string : opening? (q.char :: cs) = some ⟨[], q, cs⟩ :=
              opening?_append isStringPrefix_nil q cs
            rw [← Quote.char_of_ofChar? isQuote', opens] at string
            cases string
          exact symbol_fits (by simp [isSymbol, blank, comment, start, digit, quote]) cs

/-! ### The lexer and the grammar -/

/-- A lexeme that fits in front of a text is read first. -/
theorem lexemes_append_of_fits {l : Lexeme} (fits : l.Fits rest) :
    lexemes (l.text ++ rest) = l :: lexemes rest := by
  cases chars : l.text ++ rest with
  | nil => exact absurd (List.append_eq_nil_iff.mp chars).1 fits.text_ne_nil
  | cons c cs => rw [lexemes, Lexeme.next_of_fits fits chars]

/-- **A grammatical list is read back from its text.** -/
theorem lexemes_of_lexed {ls : List Lexeme} (lexed : Lexed ls) :
    lexemes (Lexeme.textOf ls) = ls := by
  induction lexed with
  | nil => rw [Lexeme.textOf, List.flatMap_nil, lexemes]
  | @cons l ls fits _ ih =>
      have text : Lexeme.textOf (l :: ls) = l.text ++ Lexeme.textOf ls := List.flatMap_cons
      rw [text, lexemes_append_of_fits fits, ih]

/-- **What the lexer reads is grammatical**, where no token holds a quote. -/
theorem lexed_of_unquoted (unquoted : ∀ l ∈ lexemes cs, l.Unquoted) :
    Lexed (lexemes cs) ∧ Lexeme.textOf (lexemes cs) = cs := by
  fun_induction lexemes cs with
  | case1 => exact ⟨.nil, rfl⟩
  | case2 c cs ih =>
      obtain ⟨lexed, text⟩ := ih fun l member => unquoted l (List.mem_cons_of_mem _ member)
      have first : (Lexeme.next c cs).1.text ++ (Lexeme.next c cs).2 = c :: cs ∧
          (Lexeme.next c cs).1.Fits (Lexeme.next c cs).2 := by
        cases opens : opening? (c :: cs) with
        | none => exact Lexeme.next_fits_of_plain opens
        | some o =>
            obtain ⟨shape, isPrefix⟩ := opening?_eq_some opens
            have string : Lexeme.next c cs = o.next := by rw [Lexeme.next, opens]
            rw [string] at unquoted ⊢
            rw [shape]
            exact Opening.next_fits isPrefix fun l member => unquoted l (List.mem_cons.mpr member)
      refine ⟨.cons (by rw [text]; exact first.2) lexed, ?_⟩
      rw [Lexeme.textOf, List.flatMap_cons, ← Lexeme.textOf, text]
      exact first.1

end Amalgam
