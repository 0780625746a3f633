import Amalgam.Proofs.Identifiers
import Amalgam.Proofs.ImportGrammar

/-!
# The words of a file's statements

What a file declares and what its imports bind are identifiers.  The lexer gives
that for every line (`lexFrom_worded`); here it is carried through the two readers
behind it.

* `classify?` reads clauses from the tokens of a statement.  By the grammar, the words of
  a clause are texts of identifier tokens (`ImportStatement.drawsOn`), so they are
  identifiers as soon as those tokens are (`classify?_spelled`).
* The reader of statements holds back the lines of an import whose parenthesis is
  open.  `Reader.HoldsRead` says that the lines held back were lexed like those given
  out; a line fed keeps it (`Reader.feed_read`), hence so does a whole file
  (`statements_read`).  What the lexer gives for every line is then had for statements
  (`statements_spelled`).
-/

namespace Amalgam

/-! ### Clauses -/

/-- The symbol that a clause asks for, and the name that it gives. -/
def ImportForm.words : ImportForm → List String
  | .wildcard _ => []
  | .symbolAs _ asked name => [asked, name]
  | .symbol _ asked => [asked]
  | .moduleAs _ name => [name]
  | .module _ => []

/-- The words of a clause are identifiers. -/
def ImportForm.Spelled (form : ImportForm) : Prop :=
  ∀ word ∈ form.words, IsIdentifier word

/-- The name that a clause binds is an identifier. -/
def ImportForm.Worded (form : ImportForm) : Prop :=
  ∀ name target, form.binding? = some (name, target) → IsIdentifier name

/-- A clause binds one of its words. -/
theorem ImportForm.Spelled.worded {form : ImportForm} (spelled : form.Spelled) : form.Worded := by
  intro name target binding
  refine spelled name ?_
  cases form with
  | wildcard => cases binding
  | symbolAs =>
      cases binding
      simp [words]
  | symbol =>
      cases binding
      simp [words]
  | moduleAs =>
      cases binding
      simp [words]
  | module => cases binding

/-- Identifier tokens that are identifiers. -/
def WordedTokens (tokens : List Token) : Prop :=
  ∀ t ∈ tokens, t.kind = .ident → IsIdentifier t.text

/-- **What a clause is made of** is identifiers among the words: the parts of its module's
name, and its own words. -/
structure ImportForm.DrawsOn (form : ImportForm) (ws : List Word) : Prop where
  source : ∃ parts, parts ≠ [] ∧ (∀ part ∈ parts, (.ident, part) ∈ ws) ∧
    form.source = ".".intercalate parts
  words : ∀ word ∈ form.words, (.ident, word) ∈ ws

theorem ModuleClause.drawsOn {ws : List Word} {form : ImportForm} (clause : ModuleClause ws form) :
    form.DrawsOn ws := by
  cases clause with
  | plain dotted => exact ⟨dotted.exists_parts, by simp [ImportForm.words]⟩
  | given dotted word name =>
      obtain ⟨parts, some, inside, same⟩ := dotted.exists_parts
      refine ⟨⟨parts, some, fun part member => ?_, same⟩, by simp [ImportForm.words]⟩
      exact List.mem_append_left _ (inside part member)

theorem SymbolClause.words_mem {source : String} {ws : List Word} {form : ImportForm}
    (clause : SymbolClause source ws form) :
    form.source = source ∧ ∀ word ∈ form.words, (.ident, word) ∈ ws := by
  cases clause with
  | plain symbol => exact ⟨rfl, by simp [ImportForm.words]⟩
  | given symbol word name => exact ⟨rfl, by simp [ImportForm.words]⟩

theorem FromList.words_mem {source : String} {ws : List Word} {forms : List ImportForm}
    (list : FromList source ws forms) {form : ImportForm} (member : form ∈ forms) :
    form.source = source ∧ ∀ word ∈ form.words, (.ident, word) ∈ ws := by
  have listed : ∀ {vs : List Word}, SepBy .comma (SymbolClause source) vs forms →
      form.source = source ∧ ∀ word ∈ form.words, (.ident, word) ∈ vs := by
    intro vs names
    obtain ⟨part, inside, clause⟩ := names.exists_item member
    exact ⟨clause.words_mem.1, fun word own => inside (clause.words_mem.2 word own)⟩
  cases list with
  | star mark =>
      rw [List.mem_singleton.mp member]
      exact ⟨rfl, by simp [ImportForm.words]⟩
  | names names => exact listed names
  | enclosed opening closing names optional =>
      refine ⟨(listed names).1, fun word own => ?_⟩
      simp [(listed names).2 word own]

/-- **The clauses of a statement are made of its words.** -/
theorem ImportStatement.drawsOn {ws : List Word} {forms : List ImportForm}
    (statement : ImportStatement ws forms) : ∀ form ∈ forms, form.DrawsOn ws := by
  intro form member
  cases statement with
  | modules word clauses =>
      obtain ⟨part, inside, clause⟩ := clauses.exists_item member
      obtain ⟨⟨parts, some, drawn, same⟩, own⟩ := clause.drawsOn
      refine ⟨⟨parts, some, fun part inParts => ?_, same⟩, fun word inForm => ?_⟩
      · exact List.mem_cons_of_mem _ (inside (drawn part inParts))
      · exact List.mem_cons_of_mem _ (inside (own word inForm))
  | symbols word word' dotted list =>
      obtain ⟨parts, some, drawn, same⟩ := dotted.exists_parts
      obtain ⟨source, own⟩ := list.words_mem member
      refine ⟨⟨parts, some, fun part inParts => ?_, source.trans same⟩, fun word inForm => ?_⟩
      · simp [drawn part inParts]
      · simp [own word inForm]

theorem WordedTokens.isIdentifier {tokens : List Token} (worded : WordedTokens tokens)
    {word : String} (member : (.ident, word) ∈ tokens.map Token.word) : IsIdentifier word := by
  obtain ⟨t, inside, same⟩ := List.mem_map.mp member
  have identifier := worded t inside (congrArg Prod.fst same)
  rwa [show t.text = word from congrArg Prod.snd same] at identifier

/-- **The words of an import statement are identifiers.** -/
theorem classify?_spelled {tokens : List Token} {forms : List ImportForm}
    (worded : WordedTokens tokens) (classified : classify? tokens = some forms) :
    ∀ form ∈ forms, form.Spelled := by
  intro form member word own
  have drawn := (importStatement_of_classify? classified).drawsOn form member
  exact worded.isIdentifier (drawn.words word own)

/-! ### Statements -/

/-- The words of a statement are identifiers. -/
def Statement.Spelled : Statement → Prop
  | .code _ _ lexed => lexed.Worded
  | .imports _ _ forms _ => ∀ form ∈ forms, form.Spelled

/-- **How a statement was read**: its line was lexed in some state, or its clauses are those
of the tokens of some line that was. -/
def Statement.Read : Statement → Prop
  | .code _ line lexed => ∃ state, lexed = (lexFrom state line).1
  | .imports _ _ forms _ => ∃ state line, classify? (lexFrom state line).1.tokens = some forms

/-- The lines that an open import holds back were lexed. -/
def Pending.Read (p : Pending) : Prop :=
  ∀ entry ∈ p.lines, ∃ state, entry.2 = (lexFrom state entry.1).1

/-- What a reader holds back was lexed. -/
def Reader.HoldsRead (r : Reader) : Prop :=
  ∀ p, r.pending = some p → p.Read

theorem Pending.codeFrom_read {entries : List (List Char × LexedLine)}
    (read : ∀ entry ∈ entries, ∃ state, entry.2 = (lexFrom state entry.1).1) (number : Nat) :
    ∀ s ∈ codeFrom number entries, s.Read := by
  induction entries generalizing number with
  | nil => simp [codeFrom]
  | cons entry rest ih =>
      intro s member
      rcases List.mem_cons.mp member with rfl | later
      · exact read entry List.mem_cons_self
      · exact ih (fun e inside => read e (List.mem_cons_of_mem _ inside)) _ s later

theorem Pending.close_read {p : Pending} (read : p.Read) : ∀ s ∈ p.close, s.Read := by
  unfold Pending.close
  split
  next forms classified =>
    intro s member
    rw [List.mem_singleton.mp member]
    exact ⟨none, p.codeText, classified⟩
  next => exact Pending.codeFrom_read read p.number

/-- A line fed is lexed, whether it is held back or comes out. -/
theorem Reader.feed_read {r : Reader} (read : r.HoldsRead) (number : Nat) (line : List Char) :
    (r.feed number line).1.HoldsRead ∧ ∀ s ∈ (r.feed number line).2, s.Read := by
  unfold Reader.feed
  dsimp only
  split
  next p held =>
    have longer : Pending.Read
        { p with later := p.later ++ [(line, (lexFrom r.state line).1)] } := by
      intro entry member
      rw [Pending.lines, ← List.cons_append, List.mem_append, List.mem_singleton] at member
      rcases member with old | rfl
      · exact read p held entry old
      · exact ⟨r.state, rfl⟩
    split
    · exact ⟨fun q none => by simp at none, Pending.close_read longer⟩
    · refine ⟨fun q same => ?_, by simp⟩
      cases same
      exact longer
  next =>
    have one : ∀ s ∈ [Statement.code number line (lexFrom r.state line).1], s.Read := by
      intro s member
      rw [List.mem_singleton.mp member]
      exact ⟨r.state, rfl⟩
    split
    · exact ⟨fun q none => by simp at none, one⟩
    · split
      next forms classified =>
        refine ⟨fun q none => by simp at none, fun s member => ?_⟩
        rw [List.mem_singleton.mp member]
        exact ⟨r.state, line, classified⟩
      next =>
        split
        · refine ⟨fun q same => ?_, by simp⟩
          cases same
          intro entry member
          rw [List.mem_singleton.mp member]
          exact ⟨r.state, rfl⟩
        · exact ⟨fun q none => by simp at none, one⟩

theorem Reader.readFrom_read {r : Reader} (read : r.HoldsRead) (number : Nat)
    (lines : List (List Char)) : ∀ s ∈ r.readFrom number lines, s.Read := by
  induction lines generalizing r number with
  | nil =>
      rw [Reader.readFrom, Reader.finish]
      split
      next p held => exact Pending.codeFrom_read (read p held) p.number
      next => simp
  | cons line rest ih =>
      obtain ⟨kept, given⟩ := Reader.feed_read read number line
      intro s member
      rw [Reader.readFrom] at member
      rcases List.mem_append.mp member with now | later
      · exact given s now
      · exact ih kept (number + 1) s later

/-- **All statements of a file are read from lexed lines.** -/
theorem statements_read (source : List Char) : ∀ s ∈ statements source, s.Read :=
  Reader.readFrom_read (fun p none => by simp at none) 1 (sourceLines source)

/-- **The words of a file are identifiers.** -/
theorem statements_spelled (source : List Char) : ∀ s ∈ statements source, s.Spelled := by
  intro s member
  have read := statements_read source s member
  cases s with
  | code number line lexed =>
      obtain ⟨state, rfl⟩ := read
      exact lexFrom_worded state line
  | imports number lines forms topLevel =>
      obtain ⟨state, line, classified⟩ := read
      exact classify?_spelled (lexFrom_worded state line) classified

end Amalgam
