import Amalgam.ImportForm.Classify
import Mathlib.Data.List.TakeWhile

/-!
# The grammar of import statements

`classify?` works by cutting: at the commas, at the word `import`, at the word `as`.  Here is
the grammar that it reads, one rule for each line of it, and the proof that the two agree.  In
one direction the pieces between cuts have to be put together again; in the other each cut
must fall where the grammar has its separator, which is so because no item of a list holds the
separator of the list.

A rule says what tokens are and say, and not where they stand.  So the grammar is one of
**words**, and a statement can be written in other places, with the same words.

## Main statements

* `SepBy`, `Dotted`, `ModuleClause`, `SymbolClause`, `FromList`, `ImportStatement` — the grammar
* `mapM_splitTokens_eq_some_iff` — cutting at separators reads lists of items
* `classify?_eq_some_iff_importStatement`
-/

namespace Amalgam

/-! ### Words -/

/-- What a token is and says, wherever it stands. -/
abbrev Word := Token.Kind × String

/-- The word of a token. -/
def Token.word (t : Token) : Word :=
  (t.kind, t.text)

variable {tokens : List Token} {forms : List ImportForm} {ws : List Word} {source : String}

theorem exists_of_map_word_eq_cons {kind : Token.Kind} {text : String}
    (words : tokens.map Token.word = (kind, text) :: ws) :
    ∃ start rest, tokens = ⟨kind, start, text⟩ :: rest ∧ rest.map Token.word = ws := by
  obtain ⟨⟨kind', start, text'⟩, rest, rfl, same, later⟩ := List.map_eq_cons_iff.mp words
  cases same
  exact ⟨start, rest, rfl, later⟩

/-! ### The grammar -/

/-- **Items with separators between them**: `item (sep item)*`. -/
inductive SepBy {α : Type} (sep : Token.Kind) (item : List Word → α → Prop) :
    List Word → List α → Prop where
  | one {ws : List Word} {a : α} (first : item ws a) : SepBy sep item ws [a]
  | more {ws rest : List Word} {a : α} {later : List α} (first : item ws a) (mark : String)
      (others : SepBy sep item rest later) : SepBy sep item (ws ++ (sep, mark) :: rest) (a :: later)

/-- `ident` -/
inductive Named : List Word → String → Prop where
  | ident (name : String) : Named [(.ident, name)] name

/-- `ident (. ident)*`, and the name with its dots. -/
def Dotted (ws : List Word) (name : String) : Prop :=
  ∃ parts, SepBy .dot Named ws parts ∧ name = ".".intercalate parts

/-- `dotted [as ident]` -/
inductive ModuleClause : List Word → ImportForm → Prop where
  | plain {ws : List Word} {source : String} (dotted : Dotted ws source) :
      ModuleClause ws (.module source)
  | given {ws : List Word} {source : String} (dotted : Dotted ws source) (word name : String) :
      ModuleClause (ws ++ [(.asWord, word), (.ident, name)]) (.moduleAs source name)

/-- `ident [as ident]` -/
inductive SymbolClause (source : String) : List Word → ImportForm → Prop where
  | plain (symbol : String) : SymbolClause source [(.ident, symbol)] (.symbol source symbol)
  | given (symbol word name : String) :
      SymbolClause source [(.ident, symbol), (.asWord, word), (.ident, name)]
        (.symbolAs source symbol name)

/-- `[,]` -/
inductive OptionalComma : List Word → Prop where
  | none : OptionalComma []
  | comma (mark : String) : OptionalComma [(.comma, mark)]

/-- What follows `from dotted import`: a star, names, or names in parentheses, where a comma
may follow the last one. -/
inductive FromList (source : String) : List Word → List ImportForm → Prop where
  | star (mark : String) : FromList source [(.star, mark)] [.wildcard source]
  | names {ws : List Word} {forms : List ImportForm}
      (names : SepBy .comma (SymbolClause source) ws forms) : FromList source ws forms
  | enclosed {ws trailing : List Word} {forms : List ImportForm} (opening closing : String)
      (names : SepBy .comma (SymbolClause source) ws forms) (optional : OptionalComma trailing) :
      FromList source ((.lparen, opening) :: (ws ++ trailing ++ [(.rparen, closing)])) forms

/-- **An import statement and its clauses.** -/
inductive ImportStatement : List Word → List ImportForm → Prop where
  | modules {ws : List Word} {forms : List ImportForm} (word : String)
      (clauses : SepBy .comma ModuleClause ws forms) :
      ImportStatement ((.importWord, word) :: ws) forms
  | symbols {ws rest : List Word} {source : String} {forms : List ImportForm} (word word' : String)
      (dotted : Dotted ws source) (list : FromList source rest forms) :
      ImportStatement ((.fromWord, word) :: (ws ++ (.importWord, word') :: rest)) forms

variable {α : Type} {sep : Token.Kind} {item : List Word → α → Prop} {as : List α}
  {form : ImportForm}

theorem SepBy.ne_nil (list : SepBy sep item ws as) : as ≠ [] := by
  cases list <;> exact List.cons_ne_nil _ _

/-- Every item of a list is read from a part of it. -/
theorem SepBy.exists_item (list : SepBy sep item ws as) {a : α} (member : a ∈ as) :
    ∃ vs, vs ⊆ ws ∧ item vs a := by
  induction list with
  | one first =>
      rw [List.mem_singleton.mp member]
      exact ⟨_, List.Subset.refl _, first⟩
  | more first mark _ ih =>
      rcases List.mem_cons.mp member with rfl | later
      · exact ⟨_, List.subset_append_left _ _, first⟩
      · obtain ⟨vs, inside, holds⟩ := ih later
        refine ⟨vs, fun w inPart => ?_, holds⟩
        exact List.mem_append_right _ (List.mem_cons_of_mem _ (inside inPart))

/-- The parts of a dotted name are identifiers among its words. -/
theorem Dotted.exists_parts {name : String} (dotted : Dotted ws name) :
    ∃ parts, parts ≠ [] ∧ (∀ part ∈ parts, (.ident, part) ∈ ws) ∧ name = ".".intercalate parts := by
  obtain ⟨parts, list, same⟩ := dotted
  refine ⟨parts, list.ne_nil, fun part member => ?_, same⟩
  obtain ⟨vs, inside, named⟩ := list.exists_item member
  cases named
  exact inside (List.mem_singleton_self _)

/-! ### Kinds of words that occur -/

section Kinds

variable {P : Token.Kind → Prop}

theorem SepBy.forall_kind (separator : P sep) (items : ∀ ws a, item ws a → ∀ w ∈ ws, P w.1)
    (list : SepBy sep item ws as) : ∀ w ∈ ws, P w.1 := by
  induction list with
  | one first => exact items _ _ first
  | more first mark _ ih =>
      intro w member
      rcases List.mem_append.mp member with early | late
      · exact items _ _ first w early
      · rcases List.mem_cons.mp late with rfl | later
        · exact separator
        · exact ih w later

theorem Dotted.forall_kind (ident : P .ident) (dot : P .dot) {name : String}
    (dotted : Dotted ws name) : ∀ w ∈ ws, P w.1 := by
  obtain ⟨parts, list, -⟩ := dotted
  refine list.forall_kind dot fun vs part named w member => ?_
  cases named
  rw [List.mem_singleton.mp member]
  exact ident

theorem ModuleClause.forall_kind (ident : P .ident) (dot : P .dot) (asWord : P .asWord)
    (clause : ModuleClause ws form) : ∀ w ∈ ws, P w.1 := by
  cases clause with
  | plain dotted => exact dotted.forall_kind ident dot
  | given dotted word name =>
      intro w member
      rcases List.mem_append.mp member with early | late
      · exact dotted.forall_kind ident dot w early
      · simp only [List.mem_cons, List.not_mem_nil, or_false] at late
        rcases late with rfl | rfl
        · exact asWord
        · exact ident

theorem SymbolClause.forall_kind (ident : P .ident) (asWord : P .asWord)
    (clause : SymbolClause source ws form) : ∀ w ∈ ws, P w.1 := by
  intro w member
  cases clause with
  | plain symbol =>
      rw [List.mem_singleton.mp member]
      exact ident
  | given symbol word name =>
      simp only [List.mem_cons, List.not_mem_nil, or_false] at member
      rcases member with rfl | rfl | rfl
      · exact ident
      · exact asWord
      · exact ident

theorem SepBy.forall_kind_moduleClause (comma : P .comma) (ident : P .ident) (dot : P .dot)
    (asWord : P .asWord) (clauses : SepBy .comma ModuleClause ws forms) :
    ∀ w ∈ ws, P w.1 :=
  clauses.forall_kind comma fun _ _ clause => clause.forall_kind ident dot asWord

theorem SepBy.forall_kind_symbolClause (comma : P .comma) (ident : P .ident) (asWord : P .asWord)
    (names : SepBy .comma (SymbolClause source) ws forms) : ∀ w ∈ ws, P w.1 :=
  names.forall_kind comma fun _ _ clause => clause.forall_kind ident asWord

end Kinds

/-! ### Cutting -/

section Cutting

variable {kind : Token.Kind}

theorem splitTokens_of_forall_ne {tokens : List Token} (apart : ∀ t ∈ tokens, t.kind ≠ kind) :
    splitTokens kind tokens = [tokens] := by
  induction tokens with
  | nil => rfl
  | cons t rest ih =>
      rw [splitTokens, if_neg (apart t List.mem_cons_self),
        ih fun u later => apart u (List.mem_cons_of_mem _ later)]
      rfl

/-- The first piece ends at the first separator. -/
theorem splitTokens_append_cons {piece rest : List Token} {t : Token}
    (apart : ∀ u ∈ piece, u.kind ≠ kind) (separator : t.kind = kind) :
    splitTokens kind (piece ++ t :: rest) = piece :: splitTokens kind rest := by
  induction piece with
  | nil => rw [List.nil_append, splitTokens, if_pos separator]
  | cons u piece ih =>
      rw [List.cons_append, splitTokens, if_neg (apart u List.mem_cons_self),
        ih fun v later => apart v (List.mem_cons_of_mem _ later)]
      rfl

/-- Tokens have a first one of a kind, or none. -/
theorem forall_ne_or_exists_first (kind : Token.Kind) (tokens : List Token) :
    (∀ t ∈ tokens, t.kind ≠ kind) ∨ ∃ piece t rest, tokens = piece ++ t :: rest ∧
      (∀ u ∈ piece, u.kind ≠ kind) ∧ t.kind = kind := by
  cases found : tokens.find? (fun t => t.kind = kind) with
  | none =>
      refine Or.inl fun t member same => ?_
      exact List.find?_eq_none.mp found t member (decide_eq_true same)
  | some t =>
      obtain ⟨same, piece, rest, split, before⟩ := List.find?_eq_some_iff_append.mp found
      refine Or.inr ⟨piece, t, rest, split, fun u member => ?_, of_decide_eq_true same⟩
      simpa using before u member

theorem splitTokens_ne_nil (tokens : List Token) : splitTokens kind tokens ≠ [] := by
  rcases forall_ne_or_exists_first kind tokens with apart | ⟨piece, t, rest, rfl, apart, same⟩
  · rw [splitTokens_of_forall_ne apart]
    exact List.cons_ne_nil _ _
  · rw [splitTokens_append_cons apart same]
    exact List.cons_ne_nil _ _

/-- A separator at the end leaves an empty piece behind it. -/
theorem splitTokens_concat_self (tokens : List Token) {t : Token} (separator : t.kind = kind) :
    splitTokens kind (tokens ++ [t]) = splitTokens kind tokens ++ [[]] := by
  induction tokens with
  | nil => simp [splitTokens, separator]
  | cons u rest ih =>
      rw [List.cons_append, splitTokens, splitTokens, ih]
      split
      · rfl
      · cases pieces : splitTokens kind rest with
        | nil => exact absurd pieces (splitTokens_ne_nil rest)
        | cons piece later => rfl

/-- Any other token at the end is in the last piece. -/
theorem getLast?_splitTokens_concat (tokens : List Token) {t : Token} (other : t.kind ≠ kind) :
    ∃ piece, (splitTokens kind (tokens ++ [t])).getLast? = some (piece ++ [t]) := by
  induction tokens with
  | nil => exact ⟨[], by simp [splitTokens, other, prependToken]⟩
  | cons u rest ih =>
      obtain ⟨piece, last⟩ := ih
      rw [List.cons_append, splitTokens]
      cases pieces : splitTokens kind (rest ++ [t]) with
      | nil => exact absurd pieces (splitTokens_ne_nil _)
      | cons first later =>
          rw [pieces] at last
          split
          · exact ⟨piece, by rw [List.getLast?_cons_cons, last]⟩
          · -- the token goes to the first piece, which may be the last one, too
            cases later with
            | nil =>
                cases last
                exact ⟨u :: piece, rfl⟩
            | cons second later =>
                rw [List.getLast?_cons_cons] at last
                exact ⟨piece, by rw [prependToken, List.getLast?_cons_cons, last]⟩

/-- The tokens up to the first one of a kind, and from there on. -/
theorem cut_append_cons {piece : List Token} (apart : ∀ u ∈ piece, u.kind ≠ kind) (t : Token)
    (same : t.kind = kind) (rest : List Token) :
    (piece ++ t :: rest).takeWhile (fun u => u.kind ≠ kind) = piece ∧
      (piece ++ t :: rest).dropWhile (fun u => u.kind ≠ kind) = t :: rest := by
  have inside : ∀ u ∈ piece, decide (u.kind ≠ kind) = true := fun u member =>
    decide_eq_true (apart u member)
  constructor
  · rw [List.takeWhile_append_of_pos inside, List.takeWhile_cons_of_neg (by simp [same]),
      List.append_nil]
  · rw [List.dropWhile_append_of_pos inside, List.dropWhile_cons_of_neg (by simp [same])]

end Cutting

theorem mapM_cons_eq_some {α β : Type} {read : α → Option β} {x : α} {xs : List α} {ys : List β} :
    (x :: xs).mapM read = some ys ↔
      ∃ y later, read x = some y ∧ xs.mapM read = some later ∧ ys = y :: later := by
  rw [List.mapM_cons]
  constructor
  · intro mapped
    obtain ⟨y, first, rest⟩ := Option.bind_eq_some_iff.mp mapped
    obtain ⟨later, others, same⟩ := Option.bind_eq_some_iff.mp rest
    cases same
    exact ⟨y, later, first, others, rfl⟩
  · rintro ⟨y, later, first, others, rfl⟩
    rw [first, others]
    rfl

section Lists

variable {read : List Token → Option α}
  (reads : ∀ tokens a, read tokens = some a ↔ item (tokens.map Token.word) a)

include reads

/-- What the pieces are read as is a list of items. -/
theorem sepBy_of_mapM_splitTokens (mapped : (splitTokens sep tokens).mapM read = some as) :
    SepBy sep item (tokens.map Token.word) as := by
  -- the rest behind a separator is shorter
  induction size : tokens.length using Nat.strongRecOn generalizing tokens as with
  | _ n ih =>
      rcases forall_ne_or_exists_first sep tokens with apart | ⟨piece, t, rest, rfl, apart, same⟩
      · rw [splitTokens_of_forall_ne apart, mapM_cons_eq_some] at mapped
        obtain ⟨a, later, first, nothing, rfl⟩ := mapped
        cases nothing
        exact .one ((reads _ _).mp first)
      · rw [splitTokens_append_cons apart same, mapM_cons_eq_some] at mapped
        obtain ⟨a, later, first, others, rfl⟩ := mapped
        have shorter : rest.length < n := by
          rw [← size, List.length_append, List.length_cons]
          omega
        have list := ih rest.length shorter others rfl
        rw [List.map_append, List.map_cons, Token.word, same]
        exact .more ((reads _ _).mp first) t.text list

/-- A list of items is read from the pieces, if no item holds a separator. -/
theorem mapM_splitTokens_of_sepBy (apart : ∀ ws a, item ws a → ∀ w ∈ ws, w.1 ≠ sep)
    (list : SepBy sep item (tokens.map Token.word) as) :
    (splitTokens sep tokens).mapM read = some as := by
  have pure : ∀ {tokens : List Token} {a : α}, item (tokens.map Token.word) a →
      ∀ t ∈ tokens, t.kind ≠ sep := by
    intro tokens a holds t member
    exact apart _ a holds t.word (List.mem_map_of_mem member)
  generalize words : tokens.map Token.word = ws at list
  induction list generalizing tokens with
  | one first =>
      subst words
      rw [splitTokens_of_forall_ne (pure first), mapM_cons_eq_some]
      exact ⟨_, [], (reads _ _).mpr first, rfl, rfl⟩
  | more first mark _ ih =>
      obtain ⟨piece, others, rfl, rfl, behind⟩ := List.map_eq_append_iff.mp words
      obtain ⟨start, rest, rfl, rfl⟩ := exists_of_map_word_eq_cons behind
      rw [splitTokens_append_cons (pure first) rfl, mapM_cons_eq_some]
      exact ⟨_, _, (reads _ _).mpr first, ih rfl, rfl⟩

/-- **Cutting at separators reads lists of items**, where no item holds a separator. -/
theorem mapM_splitTokens_eq_some_iff (apart : ∀ ws a, item ws a → ∀ w ∈ ws, w.1 ≠ sep) :
    (splitTokens sep tokens).mapM read = some as ↔
      SepBy sep item (tokens.map Token.word) as :=
  ⟨sepBy_of_mapM_splitTokens reads, mapM_splitTokens_of_sepBy reads apart⟩

end Lists

/-! ### Clauses -/

/-- **Dotted names.** -/
theorem dotted?_eq_some_iff {name : String} :
    dotted? tokens = some name ↔ Dotted (tokens.map Token.word) name := by
  constructor
  · intro read
    fun_induction dotted? tokens generalizing name with
    | case1 start word =>
        cases read
        exact ⟨[word], .one (.ident word), String.intercalate_singleton.symm⟩
    | case2 start word place mark rest ih =>
        obtain ⟨later, found, rfl⟩ := Option.map_eq_some_iff.mp read
        obtain ⟨parts, list, rfl⟩ := ih found
        refine ⟨word :: parts, ?_, (String.intercalate_cons_of_ne_nil list.ne_nil).symm⟩
        exact .more (.ident word) mark list
    | case3 => cases read
  · rintro ⟨parts, list, rfl⟩
    generalize words : tokens.map Token.word = ws at list
    induction list generalizing tokens with
    | one named =>
        cases named
        obtain ⟨start, rest, rfl, nothing⟩ := exists_of_map_word_eq_cons words
        cases List.map_eq_nil_iff.mp nothing
        rw [String.intercalate_singleton]
        rfl
    | more named mark list ih =>
        cases named
        obtain ⟨start, behind, rfl, words'⟩ := exists_of_map_word_eq_cons words
        obtain ⟨place, rest, rfl, words''⟩ := exists_of_map_word_eq_cons words'
        rw [String.intercalate_cons_of_ne_nil list.ne_nil, dotted?, ih words'']
        rfl

/-- **Clauses of `import`.** -/
theorem moduleClause?_eq_some_iff :
    moduleClause? tokens = some form ↔ ModuleClause (tokens.map Token.word) form := by
  constructor
  · intro read
    have whole : tokens.takeWhile (fun t => t.kind ≠ .asWord) ++
        tokens.dropWhile (fun t => t.kind ≠ .asWord) = tokens := List.takeWhile_append_dropWhile
    unfold moduleClause? at read
    split at read
    next nothing =>
      rw [nothing, List.append_nil] at whole
      obtain ⟨source, dotted, rfl⟩ := Option.map_eq_some_iff.mp read
      rw [whole] at dotted
      exact .plain (dotted?_eq_some_iff.mp dotted)
    next t start name rest =>
      obtain ⟨source, dotted, rfl⟩ := Option.map_eq_some_iff.mp read
      -- what is dropped starts with the word that stopped
      have same : t.kind = .asWord := by
        have stopped := List.head?_dropWhile_not (fun t : Token => t.kind ≠ .asWord) tokens
        rw [rest] at stopped
        simpa using stopped
      rw [← whole, rest, List.map_append, List.map_cons, Token.word, same]
      exact .given (dotted?_eq_some_iff.mp dotted) t.text name
    next => cases read
  · intro clause
    generalize words : tokens.map Token.word = ws at clause
    have apart : ∀ {piece : List Token} {source : String}, Dotted (piece.map Token.word) source →
        ∀ t ∈ piece, t.kind ≠ .asWord := by
      intro piece source dotted t member
      exact dotted.forall_kind (P := (· ≠ .asWord)) (by decide) (by decide) t.word
        (List.mem_map_of_mem member)
    cases clause with
    | plain dotted =>
        subst words
        have inside : ∀ t ∈ tokens, decide (t.kind ≠ .asWord) = true := fun t member =>
          decide_eq_true (apart dotted t member)
        rw [moduleClause?, List.takeWhile_eq_self_iff.mpr inside,
          List.dropWhile_eq_nil_iff.mpr inside]
        dsimp only
        rw [dotted?_eq_some_iff.mpr dotted]
        rfl
    | given dotted word name =>
        obtain ⟨piece, behind, rfl, rfl, words'⟩ := List.map_eq_append_iff.mp words
        obtain ⟨place, last, rfl, words''⟩ := exists_of_map_word_eq_cons words'
        obtain ⟨start, rest, rfl, nothing⟩ := exists_of_map_word_eq_cons words''
        cases List.map_eq_nil_iff.mp nothing
        obtain ⟨taken, dropped⟩ := cut_append_cons (apart dotted) ⟨.asWord, place, word⟩ rfl
          [⟨.ident, start, name⟩]
        rw [moduleClause?, taken, dropped]
        dsimp only
        rw [dotted?_eq_some_iff.mpr dotted]
        rfl

/-- **Names of `from`.** -/
theorem symbolClause?_eq_some_iff :
    symbolClause? source tokens = some form ↔
      SymbolClause source (tokens.map Token.word) form := by
  constructor
  · intro read
    unfold symbolClause? at read
    split at read
    next start symbol =>
      cases read
      exact .plain symbol
    next start symbol place word later name =>
      cases read
      exact .given symbol word name
    next => cases read
  · intro clause
    generalize words : tokens.map Token.word = ws at clause
    cases clause with
    | plain symbol =>
        obtain ⟨start, rest, rfl, nothing⟩ := exists_of_map_word_eq_cons words
        cases List.map_eq_nil_iff.mp nothing
        rfl
    | given symbol word name =>
        obtain ⟨start, behind, rfl, words'⟩ := exists_of_map_word_eq_cons words
        obtain ⟨place, last, rfl, words''⟩ := exists_of_map_word_eq_cons words'
        obtain ⟨later, rest, rfl, nothing⟩ := exists_of_map_word_eq_cons words''
        cases List.map_eq_nil_iff.mp nothing
        rfl

theorem symbolClauses?_eq_some_iff :
    (splitTokens .comma tokens).mapM (symbolClause? source) = some forms ↔
      SepBy .comma (SymbolClause source) (tokens.map Token.word) forms :=
  mapM_splitTokens_eq_some_iff (fun _ _ => symbolClause?_eq_some_iff) fun _ _ clause =>
    clause.forall_kind (P := (· ≠ .comma)) (by decide) (by decide)

/-- A list of names starts and ends with an identifier. -/
theorem SepBy.ends_of_symbolClause (names : SepBy .comma (SymbolClause source) ws forms) :
    ws.head?.map Prod.fst = some .ident ∧ ws.getLast?.map Prod.fst = some .ident := by
  have single : ∀ {ws : List Word} {form : ImportForm}, SymbolClause source ws form →
      ws.head?.map Prod.fst = some .ident ∧ ws.getLast?.map Prod.fst = some .ident := by
    intro ws form clause
    cases clause <;> exact ⟨rfl, rfl⟩
  induction names with
  | one first => exact single first
  | @more ws rest form later first mark others ih =>
      constructor
      · rw [List.head?_append]
        cases ws with
        | nil => cases first
        | cons w ws => exact (single first).1
      · cases rest with
        | nil => cases ih.1
        | cons w rest =>
            have last := ih.2
            rw [List.getLast?_append, List.getLast?_cons_cons]
            cases found : (w :: rest).getLast? with
            | none => exact absurd (List.getLast?_eq_none_iff.mp found) (List.cons_ne_nil w rest)
            | some v =>
                rw [found] at last
                exact last

/-- **Names in parentheses**, where a comma may follow the last one. -/
theorem enclosedClauses?_eq_some_iff : enclosedClauses? source tokens = some forms ↔
      ∃ ws trailing, tokens.map Token.word = ws ++ trailing ∧ OptionalComma trailing ∧
        SepBy .comma (SymbolClause source) ws forms := by
  -- a comma at the end is not part of the names, so the last token decides
  have unended : ∀ {t : Token} {ws : List Word} (early : List Token), t.kind = .comma →
      SepBy .comma (SymbolClause source) ws forms → ws ≠ (early ++ [t]).map Token.word := by
    intro t ws early comma names same
    have last := names.ends_of_symbolClause.2
    rw [same, List.map_append, List.map_singleton, List.getLast?_concat, Option.map_some,
      Token.word, comma] at last
    cases last
  rcases List.eq_nil_or_concat tokens with rfl | ⟨early, t, rfl⟩
  · have plain : enclosedClauses? source [] =
        (splitTokens .comma []).mapM (symbolClause? source) := rfl
    rw [plain, symbolClauses?_eq_some_iff]
    constructor
    · intro names
      exact ⟨[], [], rfl, .none, names⟩
    · rintro ⟨ws, trailing, whole, -, names⟩
      rw [(List.append_eq_nil_iff.mp whole.symm).1] at names
      exact names
  · rw [List.concat_eq_append]
    by_cases comma : t.kind = .comma
    · have cut : enclosedClauses? source (early ++ [t]) =
          (splitTokens .comma early).mapM (symbolClause? source) := by
        have pieces := splitTokens_concat_self early comma
        have positive : 0 < (splitTokens .comma early).length :=
          List.length_pos_iff.mpr (splitTokens_ne_nil early)
        have ends : 1 < (splitTokens .comma (early ++ [t])).length ∧
            (splitTokens .comma (early ++ [t])).getLast? = some [] := by
          rw [pieces, List.length_append, List.length_singleton, List.getLast?_concat]
          exact ⟨by omega, rfl⟩
        rw [enclosedClauses?, if_pos ends, pieces, List.dropLast_concat]
      rw [cut, symbolClauses?_eq_some_iff]
      constructor
      · intro names
        refine ⟨_, [(.comma, t.text)], ?_, .comma t.text, names⟩
        rw [List.map_append, List.map_singleton, Token.word, comma]
      · rintro ⟨ws, trailing, whole, optional, names⟩
        cases optional with
        | none =>
            rw [List.append_nil] at whole
            exact absurd whole.symm (unended early comma names)
        | comma mark =>
            rw [List.map_append, List.map_singleton] at whole
            rw [(List.append_inj_left' whole rfl)]
            exact names
    · have plain : enclosedClauses? source (early ++ [t]) =
          (splitTokens .comma (early ++ [t])).mapM (symbolClause? source) := by
        obtain ⟨piece, last⟩ := getLast?_splitTokens_concat early comma
        exact if_neg (by simp [last])
      rw [plain, symbolClauses?_eq_some_iff]
      constructor
      · intro names
        exact ⟨_, [], (List.append_nil _).symm, .none, names⟩
      · rintro ⟨ws, trailing, whole, optional, names⟩
        cases optional with
        | none =>
            rw [whole, List.append_nil]
            exact names
        | comma mark =>
            have last := congrArg List.getLast? whole
            rw [List.map_append, List.map_singleton, List.getLast?_concat,
              List.getLast?_concat] at last
            exact absurd (congrArg Prod.fst (Option.some.inj last)) comma

/-- **What follows the word `import`.** -/
theorem fromClauses?_eq_some_iff :
    fromClauses? source tokens = some forms ↔ FromList source (tokens.map Token.word) forms := by
  constructor
  · intro read
    unfold fromClauses? at read
    split at read
    next start mark =>
      cases read
      exact .star mark
    next start opening rest =>
      split at read
      next place closing last =>
        obtain ⟨ws, trailing, whole, optional, names⟩ := enclosedClauses?_eq_some_iff.mp read
        obtain ⟨early, rfl⟩ := List.getLast?_eq_some_iff.mp last
        rw [List.dropLast_concat] at whole
        rw [List.map_cons, List.map_append, whole]
        exact .enclosed opening closing names optional
      next => cases read
    next => exact .names (symbolClauses?_eq_some_iff.mp read)
  · intro list
    generalize words : tokens.map Token.word = ws at list
    cases list with
    | star mark =>
        obtain ⟨start, rest, rfl, nothing⟩ := exists_of_map_word_eq_cons words
        cases List.map_eq_nil_iff.mp nothing
        rfl
    | names names =>
        subst words
        have first := names.ends_of_symbolClause.1
        unfold fromClauses?
        split
        next => cases first
        next => cases first
        next => exact symbolClauses?_eq_some_iff.mpr names
    | @enclosed ws trailing _ opening closing names optional =>
        obtain ⟨start, behind, rfl, words'⟩ := exists_of_map_word_eq_cons words
        obtain ⟨early, last, rfl, whole, words''⟩ := List.map_eq_append_iff.mp words'
        obtain ⟨place, rest, rfl, nothing⟩ := exists_of_map_word_eq_cons words''
        cases List.map_eq_nil_iff.mp nothing
        have clauses := enclosedClauses?_eq_some_iff.mpr ⟨ws, trailing, whole, optional, names⟩
        simp only [fromClauses?, List.getLast?_concat, List.dropLast_concat]
        exact clauses

/-! ### Statements -/

/-- What is classified is a statement. -/
theorem importStatement_of_classify? (classified : classify? tokens = some forms) :
    ImportStatement (tokens.map Token.word) forms := by
  unfold classify? at classified
  split at classified
  next start word rest =>
    refine .modules word ?_
    exact sepBy_of_mapM_splitTokens (fun _ _ => moduleClause?_eq_some_iff) classified
  next start word rest =>
    split at classified
    next t clauses behind =>
      obtain ⟨source, dotted, read⟩ := Option.bind_eq_some_iff.mp classified
      have same : t.kind = .importWord := by
        have stopped := List.head?_dropWhile_not (fun t : Token => t.kind ≠ .importWord) rest
        rw [behind] at stopped
        simpa using stopped
      have whole := List.takeWhile_append_dropWhile (p := fun t : Token => t.kind ≠ .importWord)
        (l := rest)
      rw [behind] at whole
      rw [List.map_cons, ← whole, List.map_append, List.map_cons, Token.word, Token.word, same]
      exact .symbols word t.text (dotted?_eq_some_iff.mp dotted) (fromClauses?_eq_some_iff.mp read)
    next => cases classified
  next => cases classified

/-- A statement is classified. -/
theorem classify?_of_importStatement (statement : ImportStatement (tokens.map Token.word) forms) :
    classify? tokens = some forms := by
  generalize words : tokens.map Token.word = ws at statement
  cases statement with
  | modules word clauses =>
      obtain ⟨start, rest, rfl, rfl⟩ := exists_of_map_word_eq_cons words
      refine mapM_splitTokens_of_sepBy (fun _ _ => moduleClause?_eq_some_iff) (fun _ _ clause => ?_)
        clauses
      exact clause.forall_kind (P := (· ≠ .comma)) (by decide) (by decide) (by decide)
  | symbols word word' dotted list =>
      obtain ⟨start, behind, rfl, words'⟩ := exists_of_map_word_eq_cons words
      obtain ⟨piece, rest, rfl, rfl, words''⟩ := List.map_eq_append_iff.mp words'
      obtain ⟨place, clauses, rfl, rfl⟩ := exists_of_map_word_eq_cons words''
      have apart : ∀ u ∈ piece, u.kind ≠ .importWord := fun u member =>
        dotted.forall_kind (P := (· ≠ .importWord)) (by decide) (by decide) u.word
          (List.mem_map_of_mem member)
      obtain ⟨taken, dropped⟩ := cut_append_cons apart ⟨.importWord, place, word'⟩ rfl clauses
      rw [classify?, taken, dropped]
      dsimp only
      rw [dotted?_eq_some_iff.mpr dotted]
      exact fromClauses?_eq_some_iff.mpr list

/-- **Tokens are classified exactly if they are an import statement**, and then as its clauses
in order, each with the texts of its module, symbol and given name. -/
theorem classify?_eq_some_iff_importStatement (tokens : List Token) (forms : List ImportForm) :
    classify? tokens = some forms ↔ ImportStatement (tokens.map Token.word) forms :=
  ⟨importStatement_of_classify?, classify?_of_importStatement⟩

end Amalgam
