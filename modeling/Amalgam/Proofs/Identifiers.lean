import Amalgam.Declaration
import Amalgam.Module
import Amalgam.Proofs.FreshNames
import Amalgam.Statement
import Mathlib.Data.List.TakeWhile

/-!
# Identifiers, from the lexer to the combined program

A build hands words around as plain strings.  This module says which of them are
identifiers (`IsIdentifier`: an ASCII letter or underscore, then letters, digits
and underscores) and follows them along the two ways they take.

## Words that come in

A token of kind `ident` has an identifier for its text, whichever of the two
places of the lexer made it: a word that is none of the six told apart, or the
letters before a quote that opens no string.  `LexedLine.Worded` records this for
a line, and it is all that declarations and imports need: the names a line
declares (`declaredNames_isIdentifier`) and the names an import binds
(`ImportForm.Worded`) are texts of such tokens.

## Words that go out

A scope is an identifier (`scopeOf_isIdentifier`), so it holds no dot, so a
qualified name has one reading (`qualify_inj`) and its flat form is the scope, two
underscores and the name (`flatten_qualify`).  A word with an underscore is none of
the reserved words, and the lexer gives it back as one token
(`IsEmitted.tokens`).
-/

namespace Amalgam

/-! ### Identifiers -/

/-- Is the text a letter or underscore, followed by letters, digits and
underscores? -/
def isIdentifierText : List Char → Bool
  | [] => false
  | c :: cs => isNameStart c && cs.all isNameChar

/-- The string is an ASCII identifier.  A reserved word is one too. -/
def IsIdentifier (s : String) : Prop :=
  isIdentifierText s.toList = true

instance (s : String) : Decidable (IsIdentifier s) :=
  inferInstanceAs (Decidable (_ = true))

theorem isNameChar_of_isNameStart {c : Char} (start : isNameStart c = true) :
    isNameChar c = true := by
  simp only [isNameStart, isNameChar, Char.isAlphanum, Bool.or_eq_true] at start ⊢
  exact start.imp_right Or.inl

/-- Every character of an identifier is a name character. -/
theorem isIdentifierText.all {cs : List Char} (identifier : isIdentifierText cs = true) :
    ∀ c ∈ cs, isNameChar c = true := by
  cases cs with
  | nil => simp
  | cons first rest =>
      rw [isIdentifierText, Bool.and_eq_true, List.all_eq_true] at identifier
      intro c member
      rcases List.mem_cons.mp member with rfl | later
      · exact isNameChar_of_isNameStart identifier.1
      · exact identifier.2 c later

/-- Name characters may follow an identifier. -/
theorem isIdentifierText.append {cs ds : List Char} (identifier : isIdentifierText cs = true)
    (names : ∀ d ∈ ds, isNameChar d = true) : isIdentifierText (cs ++ ds) = true := by
  cases cs with
  | nil => simp [isIdentifierText] at identifier
  | cons first rest =>
      rw [isIdentifierText, Bool.and_eq_true] at identifier
      rw [List.cons_append, isIdentifierText, List.all_append, identifier.1, identifier.2]
      simpa using names

namespace IsIdentifier

theorem ne_empty {s : String} (identifier : IsIdentifier s) : s ≠ "" := by
  rintro rfl
  simp [IsIdentifier, isIdentifierText] at identifier

theorem append {s t : String} (identifier : IsIdentifier s)
    (names : ∀ c ∈ t.toList, isNameChar c = true) : IsIdentifier (s ++ t) := by
  rw [IsIdentifier, String.toList_append]
  exact isIdentifierText.append identifier names

theorem not_mem_dot {s : String} (identifier : IsIdentifier s) : '.' ∉ s.toList := by
  intro member
  have := isIdentifierText.all identifier '.' member
  exact absurd this (by decide)

/-- A number keeps an identifier one. -/
theorem numbered {base : String} (identifier : IsIdentifier base) (n : Nat) :
    IsIdentifier (numbered base n) := by
  rw [Amalgam.numbered]
  refine (identifier.append ?_).append ?_
  · exact List.all_eq_true.mp (by decide)
  · intro c member
    rw [Nat.toList_repr] at member
    have digit := Nat.isDigit_of_mem_toDigits (by decide) (by decide) member
    simp [isNameChar, Char.isAlphanum, digit]

/-- The free name for an identifier is one. -/
theorem freshName {base : String} (identifier : IsIdentifier base) (taken : List String) :
    IsIdentifier (freshName taken base) := by
  rcases freshName_cases taken base with ⟨asked, -⟩ | ⟨n, -, -, numbered, -⟩
  · rw [asked]
    exact identifier
  · rw [numbered]
    exact identifier.numbered n

end IsIdentifier

/-- **A scope is an identifier**, whatever the module is called. -/
theorem scopeOf_isIdentifier (name : String) : IsIdentifier (scopeOf name) := by
  have kept : ∀ c ∈ name.toList.filter isScopeChar, isNameChar c = true := by
    intro c member
    exact (List.mem_filter.mp member).2
  unfold scopeOf
  split
  next => decide
  next c cs chars =>
    rw [chars] at kept
    have head := kept c List.mem_cons_self
    have tail : ∀ d ∈ cs, isNameChar d = true := fun d later =>
      kept d (List.mem_cons_of_mem _ later)
    rw [IsIdentifier, String.toList_ofList]
    by_cases digit : c.isDigit = true
    · rw [if_pos digit, isIdentifierText, Bool.and_eq_true, List.all_eq_true]
      exact ⟨by decide, kept⟩
    · rw [if_neg digit, isIdentifierText, Bool.and_eq_true, List.all_eq_true]
      refine ⟨?_, tail⟩
      simp only [isNameChar, isNameStart, Char.isAlphanum, Bool.or_eq_true] at head ⊢
      rcases head with underscore | letter | number
      · exact Or.inl underscore
      · exact Or.inr letter
      · exact absurd number digit

/-! ### Qualified names -/

/-- A text in front of the first dot and the text behind it are determined. -/
theorem append_dot_inj {a b c d : List Char} (undottedLeft : '.' ∉ a) (undottedRight : '.' ∉ c)
    (equal : a ++ '.' :: b = c ++ '.' :: d) : a = c ∧ b = d := by
  induction a generalizing c with
  | nil =>
      cases c with
      | nil => exact ⟨rfl, (List.cons.inj equal).2⟩
      | cons x xs =>
          obtain rfl : '.' = x := (List.cons.inj equal).1
          exact absurd List.mem_cons_self undottedRight
  | cons x xs ih =>
      cases c with
      | nil =>
          obtain rfl : x = '.' := (List.cons.inj equal).1
          exact absurd List.mem_cons_self undottedLeft
      | cons y ys =>
          obtain ⟨heads, tails⟩ := List.cons.inj equal
          obtain ⟨rest, behind⟩ := ih (fun h => undottedLeft (List.mem_cons_of_mem _ h))
            (fun h => undottedRight (List.mem_cons_of_mem _ h)) tails
          exact ⟨by rw [heads, rest], behind⟩

/-- **A qualified name has one reading**, since its scope holds no dot. -/
theorem qualify_inj {scope₁ scope₂ name₁ name₂ : String} (first : IsIdentifier scope₁)
    (second : IsIdentifier scope₂) (equal : qualify scope₁ name₁ = qualify scope₂ name₂) :
    scope₁ = scope₂ ∧ name₁ = name₂ := by
  have texts : scope₁.toList ++ '.' :: name₁.toList = scope₂.toList ++ '.' :: name₂.toList := by
    simpa [qualify] using congrArg String.toList equal
  obtain ⟨scopes, names⟩ := append_dot_inj first.not_mem_dot second.not_mem_dot texts
  exact ⟨String.toList_inj.mp scopes, String.toList_inj.mp names⟩

theorem flattenChars_append_dot {cs : List Char} (undotted : '.' ∉ cs) (ds : List Char) :
    flattenChars (cs ++ '.' :: ds) = cs ++ '_' :: '_' :: ds := by
  induction cs with
  | nil => simp [flattenChars]
  | cons c cs ih =>
      rw [List.mem_cons, not_or] at undotted
      rw [List.cons_append, flattenChars, if_neg (Ne.symm undotted.1), ih undotted.2,
        List.cons_append]

/-- The flat form of a declaration's name. -/
theorem flatten_qualify {scope : String} (identifier : IsIdentifier scope) (name : String) :
    flatten (qualify scope name) = scope ++ "__" ++ name := by
  apply String.toList_inj.mp
  have chars : (qualify scope name).toList = scope.toList ++ '.' :: name.toList := by
    simp [qualify]
  rw [flatten, String.toList_ofList, chars, flattenChars_append_dot identifier.not_mem_dot]
  simp

/-! ### The word of a combined program -/

/-- An identifier that no reserved word can be: it holds an underscore. -/
structure IsEmitted (s : String) : Prop where
  identifier : IsIdentifier s
  underscore : '_' ∈ s.toList

namespace IsEmitted

/-- What the registry gives to a declaration. -/
theorem freshName_flatten {scope name : String} (inScope : IsIdentifier scope)
    (named : IsIdentifier name) (taken : List String) :
    IsEmitted (freshName taken (flatten (qualify scope name))) := by
  have base : IsIdentifier (flatten (qualify scope name)) := by
    rw [flatten_qualify inScope]
    exact (inScope.append (List.all_eq_true.mp (by decide))).append (isIdentifierText.all named)
  refine ⟨base.freshName taken, ?_⟩
  rcases freshName_cases taken (flatten (qualify scope name)) with ⟨asked, -⟩ | ⟨n, -, -, number, -⟩
  · rw [asked, flatten_qualify inScope]
    simp
  · rw [number, numbered]
    simp

/-- It is not reserved. -/
theorem not_isKeyword {s : String} (emitted : IsEmitted s) : isKeyword s = false := by
  have plain : ∀ word ∈ keywords, '_' ∉ word.toList := by decide
  rw [isKeyword, Bool.eq_false_iff, Ne, List.contains_iff_mem]
  exact fun member => plain s member emitted.underscore

/-- It is none of the six words that the lexer tells apart. -/
theorem ofWord {s : String} (emitted : IsEmitted s) : Token.Kind.ofWord s.toList = .ident := by
  have apart : ∀ {word : String}, '_' ∉ word.toList → s.toList ≠ word.toList := by
    intro word plain equal
    exact plain (equal ▸ emitted.underscore)
  rw [Token.Kind.ofWord, if_neg (apart (by decide)), if_neg (apart (by decide)),
    if_neg (apart (by decide)), if_neg (apart (by decide)), if_neg (apart (by decide)),
    if_neg (apart (by decide))]

end IsEmitted

/-- No string opens at a text of name characters. -/
theorem opening?_of_names {cs : List Char} (names : ∀ c ∈ cs, isNameChar c = true) :
    opening? cs = none := by
  simp only [opening?]
  split
  next c rest chars =>
    have member : c ∈ cs := by
      have suffix := List.dropWhile_suffix isStringLetter (l := cs)
      exact suffix.subset (chars ▸ List.mem_cons_self)
    have noQuote : Quote.ofChar? c = none := by
      have name := names c member
      unfold Quote.ofChar?
      rw [if_neg, if_neg]
      · rintro rfl
        exact absurd name (by decide)
      · rintro rfl
        exact absurd name (by decide)
    simp [noQuote]
  next => rfl

/-- What starts a name is neither blank nor the start of a comment. -/
theorem nextPlain_of_isNameStart {c : Char} (start : isNameStart c = true) (cs : List Char) :
    Lexeme.nextPlain c cs =
      (.token (.ofWord (c :: cs.takeWhile isNameChar)) (c :: cs.takeWhile isNameChar),
        cs.dropWhile isNameChar) := by
  have blank : isLineBlank c = false := by
    rw [Bool.eq_false_iff]
    intro blank
    simp only [isLineBlank, Bool.or_eq_true, beq_iff_eq] at blank
    rcases blank with ((rfl | rfl) | rfl) | rfl <;> exact absurd start (by decide)
  have comment : c ≠ '#' := by
    rintro rfl
    exact absurd start (by decide)
  rw [Lexeme.nextPlain, if_neg (by simp [blank]), if_neg comment, if_pos start]

/-- A word is one lexeme. -/
theorem lexemes_of_identifier {cs : List Char} (identifier : isIdentifierText cs = true) :
    lexemes cs = [.token (.ofWord cs) cs] := by
  have names := isIdentifierText.all identifier
  cases cs with
  | nil => simp [isIdentifierText] at identifier
  | cons c cs =>
      rw [isIdentifierText, Bool.and_eq_true, List.all_eq_true] at identifier
      have whole : cs.takeWhile isNameChar = cs := List.takeWhile_eq_self_iff.mpr identifier.2
      have nothing : cs.dropWhile isNameChar = [] := List.dropWhile_eq_nil_iff.mpr identifier.2
      have next : Lexeme.next c cs = (.token (.ofWord (c :: cs)) (c :: cs), []) := by
        rw [Lexeme.next, opening?_of_names names]
        change Lexeme.nextPlain c cs = _
        rw [nextPlain_of_isNameStart identifier.1, whole, nothing]
      rw [lexemes, next, lexemes]

/-- **The lexer reads an emitted word as one identifier.** -/
theorem IsEmitted.tokens {s : String} (emitted : IsEmitted s) :
    (lexFresh s.toList).tokens = [⟨.ident, 0, s⟩] := by
  have word := lexemes_of_identifier emitted.identifier
  rw [emitted.ofWord] at word
  simp [lexFresh, lexFrom, lexLine, word, tokensOf, tokensFrom, String.ofList_toList]

/-! ### Words of a line -/

/-- A lexeme that is an identifier token reads as one. -/
def Lexeme.Worded : Lexeme → Prop
  | .token .ident text => isIdentifierText text = true
  | _ => True

/-- A token of another kind promises nothing. -/
theorem Lexeme.worded_token {kind : Token.Kind} (other : kind ≠ .ident) (text : List Char) :
    (Lexeme.token kind text).Worded := by
  cases kind with
  | ident => exact absurd rfl other
  | _ => exact trivial

theorem isNameStart_of_isStringLetter {c : Char} (letter : isStringLetter c = true) :
    isNameStart c = true := by
  have letters : ∀ d ∈ "rRbBuUfF".toList, isNameStart d = true :=
    List.all_eq_true.mp (by decide)
  exact letters c (List.contains_iff_mem.mp letter)

/-- The letters before a quote, if there are any, are a word. -/
theorem isIdentifierText_of_letters {cs : List Char} {o : Opening} (opens : opening? cs = some o)
    (some : o.letters ≠ []) : isIdentifierText o.letters = true := by
  have letters : ∀ c ∈ o.letters, isNameStart c = true := by
    simp only [opening?] at opens
    split at opens
    · split at opens
      · obtain ⟨quote, -, rfl⟩ := Option.map_eq_some_iff.mp opens
        intro c member
        exact isNameStart_of_isStringLetter (List.mem_takeWhile_imp member)
      · cases opens
    · cases opens
  cases chars : o.letters with
  | nil => exact absurd chars some
  | cons c cs =>
      rw [chars] at letters
      rw [isIdentifierText, Bool.and_eq_true, List.all_eq_true]
      refine ⟨letters c List.mem_cons_self, fun d later => ?_⟩
      exact isNameChar_of_isNameStart (letters d (List.mem_cons_of_mem _ later))

theorem Opening.stray_worded {o : Opening} (word : o.letters ≠ [] → isIdentifierText o.letters = true)
    (body rest : List Char) : (o.stray body rest).1.Worded := by
  unfold Opening.stray
  split
  · exact trivial
  · split
    next some => exact word some
    next => exact trivial

theorem Opening.next_worded {o : Opening}
    (word : o.letters ≠ [] → isIdentifierText o.letters = true) : o.next.1.Worded := by
  unfold Opening.next
  split
  · unfold Opening.nextTriple
    split <;> exact trivial
  · unfold Opening.nextSingle
    split
    · exact Opening.stray_worded word _ _
    · split
      · exact Opening.stray_worded word _ _
      · split <;> exact trivial

theorem charKind_ne_ident (c : Char) : charKind c ≠ .ident := by
  unfold charKind
  split <;> exact Token.Kind.noConfusion

/-- The lexeme where no string starts. -/
theorem Lexeme.nextPlain_worded (c : Char) (cs : List Char) : (nextPlain c cs).1.Worded := by
  by_cases start : isNameStart c = true
  · rw [nextPlain_of_isNameStart start]
    cases kind : Token.Kind.ofWord (c :: cs.takeWhile isNameChar) with
    | ident =>
        change isIdentifierText _ = true
        rw [isIdentifierText, Bool.and_eq_true, List.all_eq_true]
        exact ⟨start, fun d member => List.mem_takeWhile_imp member⟩
    | _ => exact trivial
  · unfold nextPlain
    split
    · exact trivial
    · split
      · exact trivial
      · split
        · exact trivial
        · split
          · exact trivial
          · exact worded_token (charKind_ne_ident c) _

theorem Lexeme.next_worded (c : Char) (cs : List Char) : (next c cs).1.Worded := by
  unfold next
  split
  next o opens => exact Opening.next_worded (isIdentifierText_of_letters opens)
  next => exact nextPlain_worded c cs

theorem lexemes_worded (cs : List Char) : ∀ lexeme ∈ lexemes cs, lexeme.Worded := by
  fun_induction lexemes cs with
  | case1 => simp
  | case2 c cs ih =>
      intro lexeme member
      rcases List.mem_cons.mp member with rfl | later
      · exact Lexeme.next_worded c cs
      · exact ih lexeme later

theorem lexLine_worded (state : Option Quote) (line : List Char) :
    ∀ lexeme ∈ lexLine state line, lexeme.Worded := by
  unfold lexLine
  split
  · exact lexemes_worded line
  · split
    · intro lexeme member
      rcases List.mem_cons.mp member with rfl | later
      · exact trivial
      · exact lexemes_worded _ lexeme later
    · intro lexeme member
      rw [List.mem_singleton.mp member]
      exact trivial

/-- The identifier tokens of a line are identifiers. -/
def LexedLine.Worded (line : LexedLine) : Prop :=
  ∀ t ∈ line.tokens, t.kind = .ident → IsIdentifier t.text

theorem tokensFrom_worded {ls : List Lexeme} (worded : ∀ lexeme ∈ ls, lexeme.Worded)
    (start : Nat) : ∀ t ∈ tokensFrom start ls, t.kind = .ident → IsIdentifier t.text := by
  induction ls generalizing start with
  | nil => simp [tokensFrom]
  | cons lexeme rest ih =>
      have later := fun begin => ih (fun l member => worded l (List.mem_cons_of_mem _ member)) begin
      have first := worded lexeme List.mem_cons_self
      cases lexeme with
      | token kind text =>
          intro t member identifier
          rw [tokensFrom] at member
          rcases List.mem_cons.mp member with rfl | old
          · change kind = .ident at identifier
            subst identifier
            rw [IsIdentifier, String.toList_ofList]
            exact first
          · exact later _ t old identifier
      | blank text => exact later _
      | literal text => exact later _
      | formatted opening body closing => exact later _
      | unclosed quote text => exact later _

/-- **Every identifier token is an identifier**, in every state of the lexer. -/
theorem lexFrom_worded (state : Option Quote) (line : List Char) :
    (lexFrom state line).1.Worded :=
  tokensFrom_worded (lexLine_worded state line) 0

/-! ### Words of a declaration -/

theorem mem_assignedFrom {group tokens : List Token} {nameNext : Bool} {t : Token}
    (member : t ∈ assignedFrom group nameNext tokens) :
    t ∈ group ∨ (t ∈ tokens ∧ t.kind = .ident) := by
  fun_induction assignedFrom group nameNext tokens with
  | case1 => simp at member
  | case2 group u rest kind ih =>
      rcases ih member with grouped | ⟨later, identifier⟩
      · rcases List.mem_append.mp grouped with old | new
        · exact Or.inl old
        · rw [List.mem_singleton.mp new]
          exact Or.inr ⟨List.mem_cons_self, kind⟩
      · exact Or.inr ⟨List.mem_cons_of_mem _ later, identifier⟩
  | case3 => simp at member
  | case4 => simp at member
  | case5 group nameNext u rest kind next ih =>
      exact (ih member).imp_right fun later => ⟨List.mem_cons_of_mem _ later.1, later.2⟩
  | case6 => simp at member
  | case7 group nameNext u rest kind nonempty ih =>
      rcases List.mem_append.mp member with old | new
      · exact Or.inl old
      · rcases ih new with none | ⟨later, identifier⟩
        · simp at none
        · exact Or.inr ⟨List.mem_cons_of_mem _ later, identifier⟩
  | case8 => simp at member

theorem mem_assignedTokens {tokens : List Token} {t : Token}
    (member : t ∈ assignedTokens tokens) : t ∈ tokens ∧ t.kind = .ident := by
  unfold assignedTokens at member
  split at member
  · split at member
    · rw [List.mem_singleton.mp member]
      exact ⟨List.mem_cons_self, rfl⟩
    · simp at member
  · rcases mem_assignedFrom member with none | found
    · simp at none
    · exact found

/-- What a line defines is named by one of its identifier tokens. -/
theorem mem_definedTokens {line : LexedLine} {t : Token} (member : t ∈ definedTokens line) :
    t ∈ line.tokens ∧ t.kind = .ident := by
  unfold definedTokens at member
  split at member
  · simp at member
  · split at member
    next tokens => rw [List.mem_singleton.mp member, tokens]; simp
    next tokens => rw [List.mem_singleton.mp member, tokens]; simp
    next tokens => rw [List.mem_singleton.mp member, tokens]; simp
    next => exact mem_assignedTokens member

/-- **A declared name is an identifier.** -/
theorem declaredNames_isIdentifier {line : LexedLine} (worded : line.Worded) {name : String}
    (declared : name ∈ declaredNames line) : IsIdentifier name := by
  obtain ⟨t, member, rfl⟩ := List.mem_map.mp declared
  unfold declaredTokens at member
  split at member
  · obtain ⟨inLine, identifier⟩ := mem_definedTokens (List.mem_filter.mp member).1
    exact worded t inLine identifier
  · simp at member

end Amalgam
