import Amalgam.ClassBlock
import Amalgam.Proofs.ClosingQuotes
import Amalgam.Proofs.TokenPlaces

/-!
# What stands beside a defined name

A line defines a name behind the word `class` or `def`, or in front of a comma, a colon or an
assignment sign.  The characters on both sides of the name are known from that, though the
lexer only knows names of ASCII characters and a string may stand anywhere between tokens.

In front of it there is a blank, a comma, a sign or the end of a string, so no name goes on
there.  Behind the target of an assignment it is the same.  Behind `class` or `def` nothing is
known of what follows, and a letter that the lexer does not take for one may follow directly.

## Main statements

* `Lexeme.Fits.startsAfter_getLast?`, `Lexeme.Fits.startsAfter_head?` — the ends of a lexeme
  that is no token
* `startsAfter_front`, `startsAfter_rear` — beside an identifier
* `exists_beside_of_mem_definedTokens`, `exists_place_of_mem_definedTokens`
* `indentOf_eq_zero_of_mem_declaredTokens`
-/

namespace Amalgam

open Renaming

/-! ### Kinds of tokens -/

/-- Is it the kind of an identifier or of a word that comes before one? -/
def Token.Kind.isWord (kind : Token.Kind) : Bool :=
  [.classWord, .defWord, .asyncWord, .ident].contains kind

/-- Is it the kind of a mark that stands beside the targets of assignments? -/
def Token.Kind.isMark (kind : Token.Kind) : Bool :=
  [.comma, .colon, .assign].contains kind

theorem charKind_isWord (c : Char) : (charKind c).isWord = false := by
  unfold charKind
  split <;> rfl

variable {t : Token} {rest : List Char} {c : Char} {tokens : List Token} {l : Lexeme}

/-- No name goes on across a mark. -/
theorem startsAfter_of_isMark (mark : (charKind c).isMark = true) :
    startsAfter (some c) = true := by
  unfold charKind at mark
  split at mark <;> first | decide | cases mark

theorem ofWord_isMark (word : List Char) : (Token.Kind.ofWord word).isMark = false := by
  unfold Token.Kind.ofWord
  repeat' split
  all_goals rfl

/-- **A word ends where no name character follows**, and what it spells is an identifier. -/
theorem Lexeme.word_of_isWord {kind : Token.Kind} {text : List Char}
    (reads : (token kind text).Fits rest ∨ (token kind text).Stray rest)
    (word : kind.isWord = true) :
    Stops isNameChar rest ∧ ((token kind text).Worded → isIdentifierText text = true) := by
  rcases reads with fits | stray
  · cases fits with
    | word identifier stops => exact ⟨stops, fun _ => identifier⟩
    | integer => cases word
    | decimal => cases word
    | operator => cases word
    | symbol =>
        rw [charKind_isWord] at word
        cases word
  · cases stray with
    | @letters _ rest q =>
        refine ⟨fun c head => ?_, id⟩
        cases head
        cases q <;> decide
    | op => cases word

/-- **A mark is one character**, and no name goes on across it. -/
theorem Lexeme.exists_of_isMark {kind : Token.Kind} {text : List Char}
    (reads : (token kind text).Fits rest ∨ (token kind text).Stray rest)
    (mark : kind.isMark = true) : ∃ c, text = [c] ∧ startsAfter (some c) = true := by
  rcases reads with fits | stray
  · cases fits with
    | word =>
        rw [ofWord_isMark] at mark
        cases mark
    | integer => cases mark
    | decimal => cases mark
    | operator => cases mark
    | @symbol c => exact ⟨c, rfl, startsAfter_of_isMark mark⟩
  · cases stray with
    | letters => cases mark
    | op => cases mark

/-! ### Lexemes that are no tokens -/

/-- The lexeme is no token. -/
def Lexeme.NoToken (l : Lexeme) : Prop :=
  ∀ kind text, l ≠ .token kind text

theorem Lexeme.NoToken.fits (plain : l.NoToken) (reads : l.Fits rest ∨ l.Stray rest) :
    l.Fits rest := by
  rcases reads with fits | stray
  · exact fits
  · cases stray with
    | letters => exact absurd rfl (plain _ _)
    | op => exact absurd rfl (plain _ _)

theorem startsAfter_of_isLineBlank (blank : isLineBlank c = true) :
    startsAfter (some c) = true := by
  simp only [isLineBlank, Bool.or_eq_true, beq_iff_eq] at blank
  rcases blank with ((rfl | rfl) | rfl) | rfl <;> decide

theorem startsAfter_char (q : Quote) : startsAfter (some q.char) = true := by
  cases q <;> decide

/-- **What is no token ends so that a name can start**, if one does start there. -/
theorem Lexeme.Fits.startsAfter_getLast? {cs : List Char} (fits : l.Fits (c :: cs))
    (plain : l.NoToken) (start : isNameStart c = true) :
    startsAfter l.text.getLast? = true := by
  cases l with
  | token kind text => exact absurd rfl (plain kind text)
  | blank text =>
      cases fits with
      | blank some blanks =>
          change startsAfter text.getLast? = true
          rw [List.getLast?_eq_getLast_of_ne_nil some]
          exact startsAfter_of_isLineBlank (blanks _ (List.getLast_mem some))
  | literal text =>
      cases fits with
      | comment inLine stops =>
          -- a comment ends with its line
          rw [stops_cons, bne_eq_false_iff_eq] at stops
          rw [stops] at start
          cases start
      | string =>
          rw [text, List.getLast?_concat]
          exact startsAfter_char _
      | @triple letters body _ q _ closed =>
          have slash : q.char ≠ '\\' := by cases q <;> decide
          have cut := isFirstCut_closeTriple slash (body ++ [])
          rw [closed []] at cut
          obtain ⟨-, before, ends, -⟩ := cut
          rw [text, ends, List.getLast?_append, List.getLast?_append]
          exact startsAfter_char q
  | formatted opening body closing =>
      cases fits with
      | formatted =>
          rw [text, List.getLast?_concat]
          exact startsAfter_char _
  | unclosed quote text => cases fits

/-- The start of a string, where no name goes on. -/
theorem startsAfter_opening {letters : List Char} (isPrefix : IsStringPrefix letters) (q : Quote)
    (stops : Stops isNameChar (letters ++ q.char :: rest)) :
    startsAfter (letters ++ q.char :: rest).head? = true := by
  cases letters with
  | nil => exact startsAfter_char q
  | cons c cs =>
      have letter := isNameStart_of_isStringLetter (isPrefix.letters c List.mem_cons_self)
      rw [List.cons_append, stops_cons, isNameChar_of_isNameStart letter] at stops
      cases stops

/-- **What is no token starts so that no name goes on**, if no name character does. -/
theorem Lexeme.Fits.startsAfter_head? (fits : l.Fits rest) (plain : l.NoToken)
    (stops : Stops isNameChar (l.text ++ rest)) :
    startsAfter (l.text ++ rest).head? = true := by
  cases l with
  | token kind text => exact absurd rfl (plain kind text)
  | blank text =>
      cases fits with
      | blank some blanks =>
          obtain ⟨c, cs, rfl⟩ := List.exists_cons_of_ne_nil some
          exact startsAfter_of_isLineBlank (blanks c List.mem_cons_self)
  | literal text =>
      cases fits with
      | comment => rfl
      | string isPrefix =>
          simp only [text, List.append_assoc, List.cons_append] at stops ⊢
          exact startsAfter_opening isPrefix _ stops
      | triple isPrefix =>
          simp only [text, List.append_assoc, List.cons_append] at stops ⊢
          exact startsAfter_opening isPrefix _ stops
  | formatted opening body closing =>
      cases fits with
      | formatted isPrefix =>
          simp only [text, List.append_assoc, List.cons_append] at stops ⊢
          exact startsAfter_opening isPrefix _ stops
  | unclosed quote text =>
      cases fits with
      | unclosed isPrefix =>
          simp only [text, List.append_assoc, List.cons_append] at stops ⊢
          exact startsAfter_opening isPrefix _ stops

/-! ### Beside an identifier -/

section Beside

variable {cs text : List Char} {before after : List Lexeme}
  (split : lexemes cs = before ++ .token .ident text :: after)

include split

theorem isIdentifierText_of_split : isIdentifierText text = true :=
  lexemes_worded cs (.token .ident text) (by rw [split]; simp)

/-- **No name goes on in front of an identifier**, if only a word or a mark can be the token
directly in front of it. -/
theorem startsAfter_front
    (led : ∀ kind word early, before = early ++ [.token kind word] →
      kind.isWord = true ∨ kind.isMark = true) :
    startsAfter (Lexeme.textOf before).getLast? = true := by
  rcases List.eq_nil_or_concat before with rfl | ⟨early, l, rfl⟩
  · rfl
  · obtain ⟨c, later, rfl⟩ : ∃ c later, text = c :: later := by
      refine List.exists_cons_of_ne_nil fun empty => ?_
      have identifier := isIdentifierText_of_split split
      rw [empty] at identifier
      cases identifier
    have start : isNameStart c = true :=
      (Bool.and_eq_true_iff.mp (isIdentifierText_of_split split)).1
    have behind : Lexeme.textOf (.token .ident (c :: later) :: after) =
        c :: (later ++ Lexeme.textOf after) := Lexeme.textOf_cons _ _
    rw [List.concat_append] at split
    have reads := fits_or_stray_of_lexemes split
    rw [behind] at reads
    have last : (Lexeme.textOf (early ++ [l])).getLast? = l.text.getLast?.or
        (Lexeme.textOf early).getLast? := by
      rw [Lexeme.textOf_append, Lexeme.textOf_cons, List.getLast?_append]
      simp [Lexeme.textOf]
    rw [List.concat_eq_append, last]
    by_cases plain : l.NoToken
    · have fits := plain.fits reads
      have ends := fits.startsAfter_getLast? plain start
      rw [List.getLast?_eq_getLast_of_ne_nil fits.text_ne_nil] at ends ⊢
      exact ends
    · simp only [Lexeme.NoToken, not_forall, not_not] at plain
      obtain ⟨kind, word, rfl⟩ := plain
      rcases led kind word early List.concat_eq_append with isWord | isMark
      · -- the two words would be one
        have stops := (Lexeme.word_of_isWord reads isWord).1
        rw [stops_cons, isNameChar_of_isNameStart start] at stops
        cases stops
      · obtain ⟨d, rfl, ends⟩ := Lexeme.exists_of_isMark reads isMark
        exact ends

/-- **No name goes on behind an identifier**, if only a mark can be the token directly behind
it. -/
theorem startsAfter_rear
    (followed : ∀ kind mark later, after = .token kind mark :: later → kind.isMark = true) :
    startsAfter (Lexeme.textOf after).head? = true := by
  have stops : Stops isNameChar (Lexeme.textOf after) :=
    (Lexeme.word_of_isWord (fits_or_stray_of_lexemes split) rfl).1
  cases after with
  | nil => rfl
  | cons l later =>
      rw [List.append_cons] at split
      have reads := fits_or_stray_of_lexemes split
      rw [Lexeme.textOf_cons] at stops ⊢
      by_cases plain : l.NoToken
      · exact (plain.fits reads).startsAfter_head? plain stops
      · simp only [Lexeme.NoToken, not_forall, not_not] at plain
        obtain ⟨kind, mark, rfl⟩ := plain
        obtain ⟨c, rfl, ends⟩ := Lexeme.exists_of_isMark reads (followed kind mark later rfl)
        exact ends

end Beside

/-! ### Defined names -/

/-- What stands beside a target among tokens: `first` says whether it may be the first. -/
structure Token.TargetIn (t : Token) (first : Bool) (tokens : List Token) : Prop where
  beside : ∃ early later next, tokens = early ++ t :: next :: later ∧ next.kind.isMark = true ∧
    (early = [] ∧ first = true ∨ ∃ last, early.getLast? = some last ∧ last.kind.isMark = true)

/-- A token in front of others. -/
theorem Token.TargetIn.cons {u : Token} {first : Bool} (target : t.TargetIn first tokens)
    (mark : first = true → u.kind.isMark = true) (first' : Bool) :
    t.TargetIn first' (u :: tokens) := by
  obtain ⟨early, later, next, rfl, marked, led⟩ := target.beside
  refine ⟨u :: early, later, next, rfl, marked, Or.inr ?_⟩
  rcases led with ⟨rfl, isFirst⟩ | ⟨last, found, isMark⟩
  · exact ⟨u, rfl, mark isFirst⟩
  · exact ⟨last, by rw [List.getLast?_cons, found]; rfl, isMark⟩

/-- A group is read up to a mark. -/
theorem exists_mark_of_mem_assignedFrom {group : List Token}
    (member : t ∈ assignedFrom group false tokens) :
    ∃ next later, tokens = next :: later ∧ next.kind.isMark = true := by
  cases tokens with
  | nil => cases member
  | cons next later =>
      refine ⟨next, later, rfl, ?_⟩
      rw [assignedFrom] at member
      split at member
      next => simp at member
      next kind => rw [kind]; rfl
      next kind => rw [kind]; rfl
      next => cases member

/-- **A target of a chain of assignments stands between marks.** -/
theorem targetIn_of_mem_assignedFrom {group : List Token} {nameNext : Bool}
    (member : t ∈ assignedFrom group nameNext tokens) :
    t ∈ group ∨ t.TargetIn nameNext tokens := by
  fun_induction assignedFrom group nameNext tokens with
  | case1 => cases member
  | case2 group u rest kind ih =>
      obtain ⟨next, later, rfl, mark⟩ := exists_mark_of_mem_assignedFrom member
      rcases ih member with grouped | target
      · rcases List.mem_append.mp grouped with old | new
        · exact Or.inl old
        · rw [List.mem_singleton.mp new]
          exact Or.inr ⟨[], later, next, rfl, mark, Or.inl ⟨rfl, rfl⟩⟩
      · exact Or.inr (target.cons (fun isFirst => by cases isFirst) true)
  | case3 => cases member
  | case4 => cases member
  | case5 group nameNext u rest kind next ih =>
      exact (ih member).imp_right fun target => target.cons (fun _ => by rw [kind]; rfl) nameNext
  | case6 => cases member
  | case7 group nameNext u rest kind nonempty ih =>
      rcases List.mem_append.mp member with old | new
      · exact Or.inl old
      · rcases ih new with none | target
        · cases none
        · exact Or.inr (target.cons (fun _ => by rw [kind]; rfl) nameNext)
  | case8 => cases member

theorem targetIn_of_mem_assignedTokens (member : t ∈ assignedTokens tokens) :
    t.TargetIn true tokens := by
  unfold assignedTokens at member
  split at member
  next start text next mark rest =>
    split at member
    · rw [List.mem_singleton.mp member]
      exact ⟨[], rest, ⟨.colon, next, mark⟩, rfl, rfl, Or.inl ⟨rfl, rfl⟩⟩
    · cases member
  next =>
    rcases targetIn_of_mem_assignedFrom member with none | target
    · cases none
    · exact target

/-- **What stands beside a defined name among the tokens of its line**: in front of it a word
or a mark, and behind it a mark, if the line starts with an identifier. -/
theorem exists_beside_of_mem_definedTokens {line : LexedLine} (member : t ∈ definedTokens line) :
    ∃ early later, line.tokens = early ++ t :: later ∧
      (∀ last ∈ early.getLast?, last.kind.isWord = true ∨ last.kind.isMark = true) ∧
      (line.first? = some .ident → ∀ next ∈ later.head?, next.kind.isMark = true) := by
  have behind : ∀ {kind : Token.Kind} {start : Nat} {text : String} {rest : List Token},
      kind ≠ .ident → line.tokens = ⟨kind, start, text⟩ :: rest → line.first? ≠ some .ident := by
    intro kind start text rest other tokens first
    rw [LexedLine.first?, tokens] at first
    cases first
    exact other rfl
  unfold definedTokens at member
  split at member
  · cases member
  · split at member
    next tokens =>
      rw [List.mem_singleton.mp member]
      refine ⟨[_], _, tokens, fun last same => ?_, fun first => ?_⟩
      · cases same
        exact Or.inl rfl
      · exact absurd first (behind (by decide) tokens)
    next tokens =>
      rw [List.mem_singleton.mp member]
      refine ⟨[_], _, tokens, fun last same => ?_, fun first => ?_⟩
      · cases same
        exact Or.inl rfl
      · exact absurd first (behind (by decide) tokens)
    next tokens =>
      rw [List.mem_singleton.mp member]
      refine ⟨[_, _], _, tokens, fun last same => ?_, fun first => ?_⟩
      · cases same
        exact Or.inl rfl
      · exact absurd first (behind (by decide) tokens)
    next =>
      obtain ⟨early, later, next, tokens, marked, led⟩ :=
        (targetIn_of_mem_assignedTokens member).beside
      refine ⟨early, next :: later, tokens, fun last same => ?_, fun _ u same => ?_⟩
      · rcases led with ⟨rfl, -⟩ | ⟨mark, found, isMark⟩
        · cases same
        · rw [found] at same
          cases same
          exact Or.inr isMark
      · cases same
        exact marked

/-- A line that defines a name starts with a word. -/
theorem exists_word_of_mem_definedTokens {line : LexedLine} (member : t ∈ definedTokens line) :
    ∃ first rest, line.tokens = first :: rest ∧ first.kind.isWord = true := by
  unfold definedTokens at member
  split at member
  · cases member
  · split at member
    next tokens => exact ⟨_, _, tokens, rfl⟩
    next tokens => exact ⟨_, _, tokens, rfl⟩
    next tokens => exact ⟨_, _, tokens, rfl⟩
    next =>
      obtain ⟨inLine, -⟩ := mem_assignedTokens member
      obtain ⟨first, rest, tokens⟩ := List.exists_cons_of_ne_nil (List.ne_nil_of_mem inLine)
      refine ⟨first, rest, tokens, ?_⟩
      rw [tokens] at member
      unfold assignedTokens at member
      split at member
      next same =>
        rw [(List.cons.inj same).1]
        rfl
      next =>
        rw [assignedFrom] at member
        split at member
        next kind => rw [kind]; rfl
        next => simp at member
        next => simp at member
        next => cases member

/-! ### Lexemes of defined names -/

/-- **Tokens and the lexemes they come from.** -/
theorem exists_of_tokensFrom_eq {start : Nat} {ls : List Lexeme} {early later : List Token}
    (tokens : tokensFrom start ls = early ++ t :: later) :
    ∃ before text after, ls = before ++ .token t.kind text :: after ∧
      tokensFrom start before = early ∧ t.start = start + byteWidth (Lexeme.textOf before) ∧
      t.text = String.ofList text ∧
      tokensFrom (start + byteWidth (Lexeme.textOf before) + byteWidth text) after = later := by
  induction ls generalizing start early with
  | nil => simp [tokensFrom] at tokens
  | cons l ls ih =>
      have onward : ∀ {early'}, tokensFrom (start + byteWidth l.text) ls = early' ++ t :: later →
          ∃ before text after, ls = before ++ .token t.kind text :: after ∧
            tokensFrom (start + byteWidth l.text) before = early' ∧
            t.start = start + byteWidth (Lexeme.textOf (l :: before)) ∧
            t.text = String.ofList text ∧
            tokensFrom (start + byteWidth (Lexeme.textOf (l :: before)) + byteWidth text) after =
              later := by
        intro early' rest
        obtain ⟨before, text, after, rfl, front, stands, spelled, behind⟩ := ih rest
        refine ⟨before, text, after, rfl, front, ?_, spelled, ?_⟩
        · rw [stands, Lexeme.textOf_cons, byteWidth_append, Nat.add_assoc]
        · rw [← behind, Lexeme.textOf_cons, byteWidth_append, ← Nat.add_assoc start]
      cases l with
      | token kind text =>
          cases early with
          | nil =>
              obtain ⟨rfl, rfl⟩ := List.cons.inj tokens
              exact ⟨[], text, ls, rfl, rfl, rfl, rfl, rfl⟩
          | cons first early =>
              obtain ⟨rfl, rest⟩ := List.cons.inj tokens
              obtain ⟨before, text', after, rfl, front, stands, spelled, behind⟩ := onward rest
              refine ⟨.token kind text :: before, text', after, rfl, ?_, stands, spelled, behind⟩
              rw [← front]
              rfl
      | _ =>
          obtain ⟨before, text, after, rfl, front, stands, spelled, behind⟩ := onward tokens
          exact ⟨_ :: before, text, after, rfl, front, stands, spelled, behind⟩

/-- The segments of a line have its text. -/
theorem textOf_lexFresh (line : List Char) : Segment.textOf (lexFresh line).segments = line :=
  (textOf_segmentsOf (lexemes line)).trans (lexemes_reads line).1

/-- **The place of a defined name**, in one segment of the code, and what is beside it: no name
goes on in front of it, and none behind it if the line starts with an identifier. -/
theorem exists_place_of_mem_definedTokens {line : List Char}
    (member : t ∈ definedTokens (lexFresh line)) :
    ∃ (place : CodePlace (lexFresh line).segments) (rear : List Char),
      line = place.passed ++ t.text.toList ++ rear ∧ byteWidth place.passed = t.start ∧
      t.text.toList <+: place.rest ∧ startsAfter place.passed.getLast? = true ∧
      ((lexFresh line).first? = some .ident → startsAfter rear.head? = true) := by
  obtain ⟨early, later, tokens, led, followed⟩ := exists_beside_of_mem_definedTokens member
  obtain ⟨before, text, after, split, front, stands, spelled, behind⟩ :=
    exists_of_tokensFrom_eq tokens
  rw [(mem_definedTokens member).2] at split
  rw [Nat.zero_add] at stands
  have some : text ≠ [] := lexLine_shaped none line (.token .ident text) (by rw [split]; simp)
  obtain ⟨place, passed, inside⟩ : ∃ place : CodePlace (lexFresh line).segments,
      place.passed = Lexeme.textOf before ∧ text <+: place.rest := by
    rw [show (lexFresh line).segments = segmentsOf (before ++ .token .ident text :: after) from
      congrArg segmentsOf split]
    exact exists_codePlace before .ident some after
  rw [spelled, String.toList_ofList]
  refine ⟨place, Lexeme.textOf after, ?_, by rw [passed, stands], inside, ?_, fun first => ?_⟩
  · rw [passed, ← textOf_lexLine none line, split, Lexeme.textOf_append, Lexeme.textOf_cons,
      List.append_assoc]
    rfl
  · rw [passed]
    refine startsAfter_front split fun kind word prior same =>
      led ⟨kind, 0 + byteWidth (Lexeme.textOf prior), String.ofList word⟩ ?_
    rw [← front, same, tokensFrom_append, tokensFrom, tokensFrom, List.getLast?_concat]
    rfl
  · refine startsAfter_rear split fun kind mark rest same => ?_
    rw [same, tokensFrom] at behind
    rw [← behind] at followed
    exact followed first _ rfl

theorem toNat_of_isNameStart (start : isNameStart c = true) :
    65 ≤ c.toNat ∧ c.toNat ≤ 122 := by
  rcases Bool.or_eq_true_iff.mp start with underscore | letter
  · rw [beq_iff_eq.mp underscore]
    decide
  · rcases Bool.or_eq_true_iff.mp letter with upper | lower
    · obtain ⟨low, high⟩ : 'A'.val ≤ c.val ∧ c.val ≤ 'Z'.val := of_decide_eq_true upper
      rw [UInt32.le_iff_toNat_le] at low high
      exact ⟨low, high.trans (by decide)⟩
    · obtain ⟨low, high⟩ := Bool.and_eq_true_iff.mp lower
      have low := UInt32.le_iff_toNat_le.mp (of_decide_eq_true low)
      have high := UInt32.le_iff_toNat_le.mp (of_decide_eq_true high)
      exact ⟨le_trans (by decide) low, high⟩

theorem isBlank_of_isNameStart (start : isNameStart c = true) : isBlank c = false := by
  obtain ⟨low, high⟩ := toNat_of_isNameStart start
  rw [Bool.eq_false_iff]
  intro blank
  simp only [isBlank, Bool.or_eq_true, Bool.and_eq_true, decide_eq_true_eq, beq_iff_eq] at blank
  omega

/-- **A line that declares a name is not indented.** -/
theorem indentOf_eq_zero_of_mem_declaredTokens {line : List Char}
    (member : t ∈ declaredTokens (lexFresh line)) : indentOf line = 0 := by
  unfold declaredTokens at member
  split at member
  next margin =>
    obtain ⟨first, rest, tokens, word⟩ :=
      exists_word_of_mem_definedTokens (List.mem_filter.mp member).1
    rw [LexedLine.startsAtMargin, tokens] at margin
    have none : tokensFrom 0 (lexemes line) = [] ++ first :: rest := tokens
    obtain ⟨before, text, after, split, -, stands, -, -⟩ := exists_of_tokensFrom_eq none
    have nothing : Lexeme.textOf before = [] := by
      rw [of_decide_eq_true margin, Nat.zero_add] at stands
      cases chars : Lexeme.textOf before with
      | nil => rfl
      | cons c cs =>
          rw [chars] at stands
          have positive := byteWidth_cons_pos c cs
          omega
    have identifier := (Lexeme.word_of_isWord (fits_or_stray_of_lexemes split) word).2
      (lexemes_worded line _ (by rw [split]; simp))
    obtain ⟨c, cs, rfl⟩ : ∃ c cs, text = c :: cs := by
      refine List.exists_cons_of_ne_nil fun empty => ?_
      rw [empty] at identifier
      cases identifier
    have whole : line = c :: (cs ++ Lexeme.textOf after) := by
      rw [← (lexemes_reads line).1, split, Lexeme.textOf_append, nothing, Lexeme.textOf_cons]
      rfl
    have start : isNameStart c = true := (Bool.and_eq_true_iff.mp identifier).1
    rw [indentOf, whole, List.takeWhile_cons_of_neg (by simp [isBlank_of_isNameStart start])]
    rfl
  · cases member

end Amalgam
