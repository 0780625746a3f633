import Amalgam.Proofs.StatementWords
import Amalgam.Proofs.WrittenWords

/-!
# Rendered imports are read back

When some clauses of an import statement go and the others stay, the others are written again:
each one as a statement by itself, with semicolons between the statements.  What is written
must be read as the clauses that were meant.

The way back is through the words.  A rendered clause writes the words of a statement that has
this clause and no other (`exists_writes_render`), and the whole line writes statements with
semicolons between them (`exists_writes_renderForms`).  No statement holds a semicolon, so the
line is cut where it was put together.

All of this needs the clause to be made of **names**, and not only of identifiers: a module
that is called `as` would be read as another word.  What the lexer gives as an identifier is a
name, even where it is only the letters in front of a stray quote (`IsName.of_lexFresh`).

## Main statements

* `IsName.of_lexFresh` — identifiers of a line are names
* `exists_writes_intercalate` — items with a separator between them
* `exists_writes_render` — one clause
* `mapM_classify?_renderForms`
-/

namespace Amalgam

/-! ### Names -/

/-- **A word that the lexer takes for an identifier**: it is spelled like one and is none of the
words that are told apart. -/
structure IsName (s : String) : Prop where
  identifier : IsIdentifier s
  kind : Token.Kind.ofWord s.toList = .ident

theorem IsName.writes {s : String} (name : IsName s) : Writes s.toList [(.ident, s)] := by
  have written := Writes.single name.identifier
  rwa [name.kind, String.ofList_toList] at written

/-- Each of the words that are told apart has a letter that cannot stand before a quote. -/
theorem ofWord_of_isStringPrefix {text : List Char} (isPrefix : IsStringPrefix text) :
    Token.Kind.ofWord text = .ident := by
  have apart : ∀ word : List Char, word.all isStringLetter = false → text ≠ word := by
    rintro word other rfl
    rw [List.all_eq_true.mpr isPrefix.letters] at other
    cases other
  rw [Token.Kind.ofWord, if_neg (apart "import".toList (by decide)),
    if_neg (apart "from".toList (by decide)), if_neg (apart "as".toList (by decide)),
    if_neg (apart "class".toList (by decide)), if_neg (apart "def".toList (by decide)),
    if_neg (apart "async".toList (by decide))]

theorem Lexeme.ofWord_of_reads {kind : Token.Kind} {text rest : List Char}
    (reads : (token kind text).Fits rest ∨ (token kind text).Stray rest)
    (identifier : kind = .ident) : Token.Kind.ofWord text = .ident := by
  rcases reads with fits | stray
  · cases fits with
    | word => exact identifier
    | integer => cases identifier
    | decimal => cases identifier
    | operator => cases identifier
    | symbol => exact absurd identifier (charKind_ne_ident _)
  · cases stray with
    | letters _ isPrefix => exact ofWord_of_isStringPrefix isPrefix
    | op => cases identifier

/-- **The identifiers of a line are names.** -/
theorem IsName.of_lexFresh {line : List Char} {name : String}
    (member : (.ident, name) ∈ (lexFresh line).tokens.map Token.word) : IsName name := by
  refine ⟨WordedTokens.isIdentifier (lexFrom_worded none line) member, ?_⟩
  obtain ⟨⟨kind, start, text⟩, inside, same⟩ := List.mem_map.mp member
  cases same
  obtain ⟨before, spelled, after, split, -, rfl⟩ := exists_of_mem_tokensFrom inside
  rw [String.toList_ofList]
  exact Lexeme.ofWord_of_reads (fits_or_stray_of_lexemes split) rfl

/-! ### Separators -/

/-- A mark that is read by itself, whatever stands on its two sides. -/
structure IsSeparator (c : Char) : Prop where
  symbol : isSymbol c = true
  anew : startsAnew c = true
  short : ∀ operator ∈ longOperators, operator.head? ≠ some c

theorem IsSeparator.writes {c : Char} (separator : IsSeparator c) {rest : List Char}
    {ws : List Word} (later : Writes rest ws) :
    Writes (c :: rest) ((charKind c, String.ofList [c]) :: ws) := by
  refine .mark separator.symbol (fun d _ => ?_) later
  rw [lengthens, Bool.eq_false_iff, Ne, List.contains_iff_mem]
  intro longer
  exact separator.short _ longer rfl

theorem isSeparator_dot : IsSeparator '.' :=
  ⟨by decide, by decide, by decide⟩

theorem isSeparator_semi : IsSeparator ';' :=
  ⟨by decide, by decide, by decide⟩

/-- **Items with a separator between them**, and blanks behind each separator. -/
theorem exists_writes_intercalate {α β : Type} {c : Char} (separator : IsSeparator c)
    {mark : String} {gap : List Char} (spelled : mark.toList = c :: gap)
    (blank : ∀ d ∈ gap, isLineBlank d = true) {item : List Word → β → Prop} {text : α → String}
    {value : α → β} {xs : List α} (some : xs ≠ [])
    (each : ∀ x ∈ xs, ∃ ws, Writes (text x).toList ws ∧ item ws (value x)) :
    ∃ ws, Writes (mark.intercalate (xs.map text)).toList ws ∧
      SepBy (charKind c) item ws (xs.map value) := by
  induction xs with
  | nil => exact absurd rfl some
  | cons x xs ih =>
      obtain ⟨ws, writes, holds⟩ := each x List.mem_cons_self
      by_cases last : xs = []
      · subst last
        refine ⟨ws, ?_, .one holds⟩
        rw [List.map_singleton, String.intercalate_singleton]
        exact writes
      · obtain ⟨later, writes', list⟩ := ih last fun y member =>
          each y (List.mem_cons_of_mem _ member)
        refine ⟨_, ?_, .more holds (String.ofList [c]) list⟩
        have nonempty : xs.map text ≠ [] := fun none => last (List.map_eq_nil_iff.mp none)
        rw [List.map_cons, String.intercalate_cons_of_ne_nil nonempty, String.toList_append,
          String.toList_append, spelled, List.append_assoc, List.cons_append]
        refine writes.append (separator.writes (writes'.blanks blank)) fun d head => ?_
        cases head
        exact separator.anew

theorem exists_writes_dotted {parts : List String} (some : parts ≠ [])
    (names : ∀ part ∈ parts, IsName part) :
    ∃ ws, Writes (".".intercalate parts).toList ws ∧ Dotted ws (".".intercalate parts) := by
  have written : ∃ ws, Writes (".".intercalate (parts.map id)).toList ws ∧
      SepBy .dot Named ws (parts.map id) :=
    exists_writes_intercalate isSeparator_dot rfl (by simp) some fun part member =>
      ⟨_, (names part member).writes, .ident part⟩
  obtain ⟨ws, writes, list⟩ := written
  rw [List.map_id] at writes list
  exact ⟨ws, writes, parts, list, rfl⟩

/-! ### Clauses -/

/-- Texts with a space between them. -/
theorem Writes.text_spaced {first second : String} {ws ws' : List Word}
    (writes : Writes first.toList ws) (writes' : Writes second.toList ws') :
    Writes (first ++ " " ++ second).toList (ws ++ ws') := by
  rw [String.toList_append, String.toList_append, List.append_assoc]
  exact writes.spaced writes'

theorem writes_import : Writes "import".toList [(.importWord, "import")] :=
  Writes.single (by decide)

theorem writes_from : Writes "from".toList [(.fromWord, "from")] :=
  Writes.single (by decide)

theorem writes_as : Writes "as".toList [(.asWord, "as")] :=
  Writes.single (by decide)

theorem writes_star : Writes "*".toList [(.star, "*")] :=
  .mark (by decide) (stops_nil _) .nil

/-- The form as a statement, taken apart at its spaces. -/
def ImportForm.spaced : ImportForm → String
  | wildcard m => "from" ++ " " ++ (m ++ " " ++ ("import" ++ " " ++ "*"))
  | symbolAs m s a =>
    "from" ++ " " ++ (m ++ " " ++ ("import" ++ " " ++ (s ++ " " ++ ("as" ++ " " ++ a))))
  | symbol m s => "from" ++ " " ++ (m ++ " " ++ ("import" ++ " " ++ s))
  | moduleAs m a => "import" ++ " " ++ (m ++ " " ++ ("as" ++ " " ++ a))
  | module m => "import" ++ " " ++ m

theorem ImportForm.render_eq_spaced (form : ImportForm) : form.render = form.spaced := by
  have hFrom : "from " = "from" ++ " " := rfl
  have hImport : "import " = "import" ++ " " := rfl
  have hInner : " import " = " " ++ ("import" ++ " ") := rfl
  have hStar : " import *" = " " ++ ("import" ++ (" " ++ "*")) := rfl
  have hAs : " as " = " " ++ ("as" ++ " ") := rfl
  cases form with
  | wildcard m => rw [render, spaced, hFrom, hStar]; simp only [String.append_assoc]
  | symbolAs m s a => rw [render, spaced, hFrom, hInner, hAs]; simp only [String.append_assoc]
  | symbol m s => rw [render, spaced, hFrom, hInner]; simp only [String.append_assoc]
  | moduleAs m a => rw [render, spaced, hImport, hAs]; simp only [String.append_assoc]
  | module m => rw [render, spaced, hImport]

/-- **A rendered clause writes the statement** that has this clause and no other. -/
theorem exists_writes_render {form : ImportForm}
    (source : ∃ ws, Writes form.source.toList ws ∧ Dotted ws form.source)
    (names : ∀ word ∈ form.words, IsName word) :
    ∃ ws, Writes form.render.toList ws ∧ ImportStatement ws [form] := by
  obtain ⟨ws, writes, dotted⟩ := source
  have symbols : ∀ {text : String} {list : List Word}, Writes text.toList list →
      FromList form.source list [form] →
      form.spaced = "from" ++ " " ++ (form.source ++ " " ++ ("import" ++ " " ++ text)) →
      ∃ ws, Writes form.spaced.toList ws ∧ ImportStatement ws [form] := by
    intro text list written reads same
    refine ⟨_, ?_, .symbols "from" "import" dotted reads⟩
    rw [same]
    exact writes_from.text_spaced (writes.text_spaced (writes_import.text_spaced written))
  have modules : ∀ {text : String} {clause : List Word}, Writes text.toList clause →
      ModuleClause clause form → form.spaced = "import" ++ " " ++ text →
      ∃ ws, Writes form.spaced.toList ws ∧ ImportStatement ws [form] := by
    intro text clause written reads same
    refine ⟨_, ?_, .modules "import" (.one reads)⟩
    rw [same]
    exact writes_import.text_spaced written
  rw [form.render_eq_spaced]
  cases form with
  | wildcard m => exact symbols writes_star (.star "*") rfl
  | symbolAs m s a =>
      have asked := (names s (by simp [ImportForm.words])).writes
      have given := (names a (by simp [ImportForm.words])).writes
      exact symbols (asked.text_spaced (writes_as.text_spaced given))
        (.names (.one (.given s "as" a))) rfl
  | symbol m s =>
      have asked := (names s (by simp [ImportForm.words])).writes
      exact symbols asked (.names (.one (.plain s))) rfl
  | moduleAs m a =>
      have given := (names a (by simp [ImportForm.words])).writes
      exact modules (writes.text_spaced (writes_as.text_spaced given)) (.given dotted "as" a) rfl
  | module m => exact modules writes (.plain dotted) rfl

/-- A clause of a statement whose identifiers are names. -/
theorem ImportForm.DrawsOn.exists_writes_render {form : ImportForm} {ws : List Word}
    (drawn : form.DrawsOn ws) (names : ∀ name, (.ident, name) ∈ ws → IsName name) :
    ∃ vs, Writes form.render.toList vs ∧ ImportStatement vs [form] := by
  refine Amalgam.exists_writes_render ?_ fun word own => names word (drawn.words word own)
  obtain ⟨parts, some, inside, same⟩ := drawn.source
  rw [same]
  exact exists_writes_dotted some fun part member => names part (inside part member)

/-! ### Lines of statements -/

/-- Statements with semicolons between them. -/
theorem exists_writes_renderForms {forms : List ImportForm} (some : forms ≠ [])
    (each : ∀ form ∈ forms, ∃ ws, Writes form.render.toList ws ∧ ImportStatement ws [form]) :
    ∃ ws, Writes (renderForms forms).toList ws ∧
      SepBy .semi ImportStatement ws (forms.map fun form => [form]) := by
  have spelled : "; ".toList = [';', ' '] := rfl
  exact exists_writes_intercalate isSeparator_semi spelled (by simp [isLineBlank]) some each

theorem FromList.ne_semi {source : String} {ws : List Word} {forms : List ImportForm}
    (list : FromList source ws forms) : ∀ w ∈ ws, w.1 ≠ .semi := by
  have listed : ∀ {vs : List Word}, SepBy .comma (SymbolClause source) vs forms →
      ∀ w ∈ vs, w.1 ≠ .semi := by
    intro vs names
    exact names.forall_kind_symbolClause (P := (· ≠ .semi)) (by decide) (by decide) (by decide)
  intro w member
  cases list with
  | star mark =>
      rw [List.mem_singleton.mp member]
      exact Token.Kind.noConfusion
  | names names => exact listed names w member
  | enclosed opening closing names optional =>
      simp only [List.mem_cons, List.mem_append, List.not_mem_nil, or_false] at member
      rcases member with rfl | (early | late) | rfl
      · exact Token.Kind.noConfusion
      · exact listed names w early
      · cases optional with
        | none => cases late
        | comma mark =>
            rw [List.mem_singleton.mp late]
            exact Token.Kind.noConfusion
      · exact Token.Kind.noConfusion

/-- **No statement holds a semicolon.** -/
theorem ImportStatement.ne_semi {ws : List Word} {forms : List ImportForm}
    (statement : ImportStatement ws forms) : ∀ w ∈ ws, w.1 ≠ .semi := by
  intro w member
  cases statement with
  | modules word clauses =>
      rcases List.mem_cons.mp member with rfl | later
      · exact Token.Kind.noConfusion
      · exact clauses.forall_kind_moduleClause (P := (· ≠ .semi)) (by decide) (by decide)
          (by decide) (by decide) w later
  | symbols word word' dotted list =>
      simp only [List.mem_cons, List.mem_append] at member
      rcases member with rfl | early | rfl | late
      · exact Token.Kind.noConfusion
      · exact dotted.forall_kind (P := (· ≠ .semi)) (by decide) (by decide) w early
      · exact Token.Kind.noConfusion
      · exact list.ne_semi w late

/-- **Rendering undoes classification.**  Take a part of the clauses of an import statement, at
least one.  Rendered on one line, they are read as statements of one clause each: these
clauses, in this order. -/
theorem mapM_classify?_renderForms {line : List Char} {forms kept : List ImportForm}
    (classified : classify? (lexFresh line).tokens = some forms) (part : kept.Sublist forms)
    (nonempty : kept ≠ []) :
    (splitTokens .semi (lexFresh (renderForms kept).toList).tokens).mapM classify? =
      some (kept.map fun form => [form]) := by
  have drawn := (importStatement_of_classify? classified).drawsOn
  obtain ⟨ws, writes, list⟩ := exists_writes_renderForms nonempty fun form member =>
    (drawn form (part.subset member)).exists_writes_render fun name => IsName.of_lexFresh
  rw [← writes.line.map_word] at list
  have reads : ∀ tokens forms, classify? tokens = some forms ↔
      ImportStatement (tokens.map Token.word) forms := fun tokens forms =>
    ⟨importStatement_of_classify?, classify?_of_importStatement⟩
  exact mapM_splitTokens_of_sepBy reads (fun _ _ statement => statement.ne_semi) list

/-- Two of three names, one of them spelled like the letters of a string. -/
theorem mapM_classify?_renderForms_two :
    classify? (lexFresh "from pkg . util import (rb as f, g, importer,)  # all".toList).tokens =
        some [.symbolAs "pkg.util" "rb" "f", .symbol "pkg.util" "g",
          .symbol "pkg.util" "importer"] ∧
      (splitTokens .semi (lexFresh (renderForms [.symbolAs "pkg.util" "rb" "f",
          .symbol "pkg.util" "importer"]).toList).tokens).mapM classify? =
        some [[.symbolAs "pkg.util" "rb" "f"], [.symbol "pkg.util" "importer"]] := by
  refine (fun classified => ⟨classified, ?_⟩) (by decide +kernel)
  exact mapM_classify?_renderForms classified (by decide) (by simp)

end Amalgam
