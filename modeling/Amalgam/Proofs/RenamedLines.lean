import Amalgam.Proofs.LexicalReading
import Amalgam.Proofs.RenamedLexemes

/-!
# Renaming keeps the lexical structure of a line

A line and its renamed line are lexed alike, but for the keys that were swapped: each was a
run of identifiers and dots, and is one identifier now.

Lexemes before and after a renaming are related along an alignment (`Renamed`), and the
lexemes after it are what the lexer reads in the renamed line, since they are grammatical.
What is left is to see in turn what the relation does to the views of a line: the string
that is left open, the segments, and the tokens with their offsets.

## Main statements

* `Renamed.openString_eq`, `Renamed.segmentsOf_alike`, `Renamed.collapses`
* `Collapses` — tokens before and after a renaming
* `renaming_keeps_lexical_structure`
-/

namespace Amalgam

/-! ### The string left open -/

theorem openString_token (kind : Token.Kind) (text : List Char) (ls : List Lexeme) :
    openString (.token kind text :: ls) = openString ls := by
  cases ls with
  | nil => rfl
  | cons l ls => simp [openString, List.getLast?_cons_cons]

theorem SpelledBy.openString_append {key : List Char} {run : List Lexeme}
    (spelled : SpelledBy key run) (ls : List Lexeme) : openString (run ++ ls) = openString ls := by
  induction spelled with
  | word text => exact openString_token _ _ _
  | dot text _ ih =>
      rw [List.cons_append, List.cons_append, openString_token, openString_token, ih]

/-- What is open after a lexeme depends on it only if it is the last. -/
theorem openString_cons_congr {l l' : Lexeme} {ls ls' : List Lexeme} (empty : ls' = [] ↔ ls = [])
    (own : openString [l'] = openString [l]) (later : openString ls' = openString ls) :
    openString (l' :: ls') = openString (l :: ls) := by
  cases ls with
  | nil =>
      rw [empty.mpr rfl]
      exact own
  | cons m ms =>
      cases ls' with
      | nil => cases empty.mp rfl
      | cons m' ms' =>
          simpa [openString, List.getLast?_cons_cons] using later

namespace Renamed

variable {edits : List Edit} {ls ls' : List Lexeme}

theorem eq_nil_iff (renamed : Renamed edits ls ls') : ls' = [] ↔ ls = [] := by
  cases renamed with
  | nil => exact Iff.rfl
  | run _ spelled => simp [spelled.ne_nil]
  | _ => simp

/-- **The same string is left open.** -/
theorem openString_eq (renamed : Renamed edits ls ls') : openString ls' = openString ls := by
  induction renamed with
  | nil => rfl
  | same later ih => exact openString_cons_congr later.eq_nil_iff rfl ih
  | fields _ later ih => exact openString_cons_congr later.eq_nil_iff rfl ih
  | run _ spelled _ ih => rw [openString_token, spelled.openString_append, ih]

end Renamed

/-! ### Segments -/

theorem segmentsOf_cons (l : Lexeme) (ls : List Lexeme) :
    segmentsOf (l :: ls) = l.pieces.foldr Segment.push (segmentsOf ls) := by
  rw [segmentsOf, List.flatMap_cons, List.foldr_append, segmentsOf]

/-- Code that is pushed piece by piece is pushed as a whole. -/
theorem push_code_append (first second : List Char) (segments : List Segment) :
    Segment.push ⟨.code, first⟩ (Segment.push ⟨.code, second⟩ segments) =
      Segment.push ⟨.code, first ++ second⟩ segments := by
  by_cases none : first = []
  · simp [Segment.push, none]
  · by_cases none' : second = []
    · simp [Segment.push, none']
    · match segments with
      | [] => simp [Segment.push, none, none']
      | ⟨.code, text⟩ :: later => simp [Segment.push, none, none']
      | ⟨.literal, text⟩ :: later => simp [Segment.push, none, none']

theorem SpelledBy.push {key : List Char} {run : List Lexeme} (spelled : SpelledBy key run)
    (segments : List Segment) :
    (run.flatMap Lexeme.pieces).foldr Segment.push segments =
      Segment.push ⟨.code, key⟩ segments := by
  induction spelled with
  | word text => rfl
  | @dot text rest run _ ih =>
      change Segment.push ⟨.code, text⟩ (Segment.push ⟨.code, ['.']⟩
        ((run.flatMap Lexeme.pieces).foldr Segment.push segments)) = _
      rw [ih, push_code_append, push_code_append, List.append_assoc, List.singleton_append]

/-- Alike pieces in front of segments of one shape. -/
theorem push_alike {s s' : Segment} {segments segments' : List Segment} (alike : PieceAlike s s')
    (shape : List.Forall₂ SameShape segments segments') :
    List.Forall₂ SameShape (Segment.push s segments) (Segment.push s' segments') := by
  obtain ⟨kind, text⟩ := s
  obtain ⟨kind', text'⟩ := s'
  obtain ⟨⟨rfl, literal⟩, empty⟩ := alike
  by_cases none : text = []
  · have none' : text' = [] := empty.mpr none
    simpa [Segment.push, none, none'] using shape
  · have some' : text' ≠ [] := fun none' => none (empty.mp none')
    have pushed : List.Forall₂ SameShape (⟨kind', text⟩ :: segments)
        (⟨kind', text'⟩ :: segments') := .cons ⟨rfl, literal⟩ shape
    cases kind' with
    | literal => simpa [Segment.push, none, some'] using pushed
    | code =>
        cases shape with
        | nil => simpa [Segment.push, none, some'] using pushed
        | @cons t t' later later' first rest =>
            obtain ⟨kind, code⟩ := t
            obtain ⟨kind', code'⟩ := t'
            obtain ⟨rfl, -⟩ := id first
            cases kind' with
            | literal => simpa [Segment.push, none, some'] using pushed
            | code =>
                -- code meets code on both sides, and what is joined is code again
                have joined : List.Forall₂ SameShape (⟨.code, text ++ code⟩ :: later)
                    (⟨.code, text' ++ code'⟩ :: later') := .cons (sameShape_code _ _) rest
                simpa [Segment.push, none, some'] using joined

theorem foldr_push_alike {pieces pieces' segments segments' : List Segment}
    (alike : List.Forall₂ PieceAlike pieces pieces')
    (shape : List.Forall₂ SameShape segments segments') :
    List.Forall₂ SameShape (pieces.foldr Segment.push segments)
      (pieces'.foldr Segment.push segments') := by
  induction alike with
  | nil => exact shape
  | cons first _ ih => exact push_alike first ih

/-- **Segments keep their shape.** -/
theorem Renamed.segmentsOf_alike {edits : List Edit} {ls ls' : List Lexeme}
    (renamed : Renamed edits ls ls') :
    List.Forall₂ SameShape (segmentsOf ls) (segmentsOf ls') := by
  induction renamed with
  | nil => exact .nil
  | same _ ih =>
      rw [segmentsOf_cons, segmentsOf_cons]
      exact foldr_push_alike (List.forall₂_refl _) ih
  | @fields _ _ opening _ _ _ alike _ ih =>
      rw [segmentsOf_cons, segmentsOf_cons]
      refine foldr_push_alike ?_ ih
      -- the opening is attached to the first piece on both sides
      induction opening with
      | nil => exact alike
      | cons c _ attached => exact attach_alike c attached
  | run lexical spelled _ ih =>
      rw [segmentsOf, List.flatMap_append, List.foldr_append, spelled.push, segmentsOf_cons]
      refine push_alike ⟨sameShape_code _ _, ?_⟩ ih
      simp [lexical.key_ne_nil, lexical.replacement_ne_nil]

/-! ### Tokens -/

theorem byteWidth_cons_pos (c : Char) (cs : List Char) : 0 < byteWidth (c :: cs) :=
  Nat.add_pos_left c.utf8Size_pos _

theorem byteWidth_append (first second : List Char) :
    byteWidth (first ++ second) = byteWidth first + byteWidth second := by
  induction first with
  | nil => exact (Nat.zero_add _).symm
  | cons c cs ih =>
      change c.utf8Size + byteWidth (cs ++ second) = c.utf8Size + byteWidth cs + byteWidth second
      rw [ih, Nat.add_assoc]

/-- **The tokens spell the key** from byte `start` on: identifiers with dots between them. -/
inductive Spells : Nat → List Char → List Token → Prop where
  | word (start : Nat) (text : List Char) :
      Spells start text [⟨.ident, start, String.ofList text⟩]
  | dot (start : Nat) (text : List Char) {rest : List Char} {run : List Token}
      (later : Spells (start + byteWidth text + 1) rest run) :
      Spells start (text ++ '.' :: rest)
        (⟨.ident, start, String.ofList text⟩ :: ⟨.dot, start + byteWidth text, "."⟩ :: run)

/-- **Runs of tokens are collapsed where keys are swapped.**  A token that is copied keeps its
kind and its text.  A swap makes one identifier of the tokens that spell its key.  Either
starts in the new line where the edits in front of it lead. -/
inductive Collapses (edits : List Edit) : List Token → List Token → Prop where
  | nil : Collapses edits [] []
  | same {done later : List Edit} {text : List Char} {ts ts' : List Token} (kind : Token.Kind)
      (cut : edits = done ++ (Edit.copies (codeMarks text) ++ later))
      (rest : Collapses edits ts ts') :
      Collapses edits (⟨kind, byteWidth (Edit.oldText done), String.ofList text⟩ :: ts)
        (⟨kind, byteWidth (Edit.newText done), String.ofList text⟩ :: ts')
  | run {done later : List Edit} {rule : Renaming.Rule} {run ts ts' : List Token}
      (cut : edits = done ++ (.swap rule :: later))
      (spells : Spells (byteWidth (Edit.oldText done)) rule.key run)
      (rest : Collapses edits ts ts') :
      Collapses edits (run ++ ts)
        (⟨.ident, byteWidth (Edit.newText done), String.ofList rule.replacement⟩ :: ts')

theorem SpelledBy.spells {key : List Char} {run : List Lexeme} (spelled : SpelledBy key run)
    (start : Nat) : ∃ tokens, Spells start key tokens ∧ ∀ ls, tokensFrom start (run ++ ls) =
      tokens ++ tokensFrom (start + byteWidth key) ls := by
  induction spelled generalizing start with
  | word text => exact ⟨_, .word start text, fun ls => rfl⟩
  | @dot text rest run _ ih =>
      obtain ⟨tokens, spells, split⟩ := ih (start + byteWidth text + 1)
      refine ⟨_, .dot start text spells, fun ls => ?_⟩
      have width : start + byteWidth (text ++ '.' :: rest) =
          start + byteWidth text + 1 + byteWidth rest := by
        rw [byteWidth_append]
        change start + (byteWidth text + (1 + byteWidth rest)) = _
        omega
      rw [width]
      change _ :: _ :: tokensFrom (start + byteWidth text + 1) (run ++ ls) = _
      rw [split]
      rfl

/-- **Tokens are collapsed.** -/
theorem Renamed.collapses {edits all : List Edit} {ls ls' : List Lexeme}
    (renamed : Renamed edits ls ls') {done : List Edit} (cut : all = done ++ edits) :
    Collapses all (tokensFrom (byteWidth (Edit.oldText done)) ls)
      (tokensFrom (byteWidth (Edit.newText done)) ls') := by
  induction renamed generalizing done with
  | nil => exact .nil
  | @same _ l _ _ _ ih =>
      have rest := @ih (done ++ Edit.copies l.marks) (by rw [cut, List.append_assoc])
      rw [Edit.oldText_append, Edit.newText_append, byteWidth_append, byteWidth_append,
        Edit.oldText_copies, Edit.newText_copies, Lexeme.map_fst_marks] at rest
      -- only a token is seen, the others just move what comes later
      cases l with
      | token kind text =>
          rw [Lexeme.marks_token] at cut
          exact .same kind cut rest
      | _ => exact rest
  | @fields inside _ opening closing _ _ _ _ ih =>
      have rest := @ih (done ++ (Edit.copies (literalMarks opening) ++
        (inside ++ Edit.copies (literalMarks closing)))) (by simp [cut])
      simpa [byteWidth_append, tokensFrom, Lexeme.text, Edit.oldText_copies,
        Nat.add_assoc] using rest
  | @run rule _ run _ _ _ spelled _ ih =>
      have old : Edit.oldText [.swap rule] = rule.key :=
        (Edit.oldText_swap rule []).trans (List.append_nil _)
      have new : Edit.newText [.swap rule] = rule.replacement :=
        (Edit.newText_swap rule []).trans (List.append_nil _)
      have rest := @ih (done ++ [.swap rule]) (by rw [cut, List.append_assoc]; rfl)
      rw [Edit.oldText_append, Edit.newText_append, byteWidth_append, byteWidth_append, old,
        new] at rest
      obtain ⟨tokens, spells, split⟩ := spelled.spells (byteWidth (Edit.oldText done))
      rw [split]
      exact .run cut spells rest

/-! ### Lines -/

theorem exists_mem_tokensFrom {kind : Token.Kind} {text : List Char} {ls : List Lexeme}
    (member : .token kind text ∈ ls) (start : Nat) :
    ∃ t ∈ tokensFrom start ls, t.text = String.ofList text := by
  induction ls generalizing start with
  | nil => cases member
  | cons l ls ih =>
      rcases List.mem_cons.mp member with rfl | later
      · exact ⟨_, List.mem_cons_self, rfl⟩
      · obtain ⟨t, inside, same⟩ := ih later (start + byteWidth l.text)
        refine ⟨t, ?_, same⟩
        cases l with
        | token => exact List.mem_cons_of_mem _ inside
        | _ => exact inside

/-- The renamed line, lexed again in the state in which the line was lexed. -/
def Renaming.relexed (r : Renaming) (keep : List Nat) (state : Option Quote) (line : List Char) :
    LexedLine × Option Quote :=
  lexFrom state (r.line keep (lexFrom state line).1)

section Lines

variable {r : Renaming} (lexical : ∀ rule ∈ r.rules, rule.Lexical)

include lexical

/-- **Outside strings, the lexer reads what the lexemes were renamed to.** -/
theorem renamed_lexemes {cs : List Char} (unquoted : ∀ l ∈ lexemes cs, l.Unquoted)
    {before : Option Char} {edits : List Edit} (placed : Edit.Placed r before edits)
    (marks : Edit.marksOf edits = (lexemes cs).flatMap Lexeme.marks) :
    Edit.oldText edits = cs ∧ Renamed edits (lexemes cs) (lexemes (Edit.newText edits)) := by
  obtain ⟨lexed, text⟩ := lexed_of_unquoted unquoted
  obtain ⟨ls', lexed', renamed⟩ := lexed.exists_renamed lexical placed marks
  refine ⟨by rw [Edit.oldText, marks, ← Lexeme.textOf_eq_marks, text], ?_⟩
  rwa [renamed.newText_eq, lexemes_of_lexed lexed']

/-- The lexemes of a line and of what edits make of it, in any state. -/
theorem renamed_lexLine {state : Option Quote} {line : List Char}
    (unquoted : ∀ l ∈ lexLine state line, l.Unquoted) {before : Option Char} {edits : List Edit}
    (placed : Edit.Placed r before edits)
    (marks : Edit.marksOf edits = (lexLine state line).flatMap Lexeme.marks) :
    Edit.oldText edits = line ∧
      Renamed edits (lexLine state line) (lexLine state (Edit.newText edits)) := by
  cases state with
  | none => exact renamed_lexemes lexical unquoted placed marks
  | some quote =>
      cases closed : closeTriple quote.char line with
      | none =>
          -- the whole line belongs to the string, so it is copied
          have shape : lexLine (some quote) line = [.unclosed quote line] := by
            simp [lexLine, closed]
          rw [shape, List.flatMap_singleton, Lexeme.marks_unclosed,
            ← List.append_nil (literalMarks line)] at marks
          obtain ⟨later, _, rfl, none, placedLater⟩ :=
            Edit.split_copied lexical placed (stuck_literalMarks _ line) marks
          obtain rfl := Edit.eq_nil_of_marksOf lexical placedLater none
          have copied : Renamed (Edit.copies (literalMarks line) ++ []) [.unclosed quote line]
              [.unclosed quote line] := by
            rw [← Lexeme.marks_unclosed quote line]
            exact .same .nil
          refine ⟨by simp [Edit.oldText], ?_⟩
          rwa [List.append_nil, Edit.newText_copies, map_fst_literalMarks, shape,
            ← List.append_nil (Edit.copies _)]
      | some split =>
          obtain ⟨body, rest⟩ := split
          obtain ⟨rfl, -, closes⟩ := closeTriple_eq_some closed
          -- the string ends after its own text, whatever follows
          have shape : ∀ cs, lexLine (some quote) (body ++ cs) = .literal body :: lexemes cs := by
            intro cs
            simp [lexLine, closes cs]
          rw [shape, List.flatMap_cons, Lexeme.marks_literal] at marks
          rw [shape] at unquoted
          obtain ⟨later, _, rfl, behind, placedLater⟩ :=
            Edit.split_copied lexical placed (stuck_literalMarks _ body) marks
          obtain ⟨old, renamed⟩ := renamed_lexemes lexical
            (fun l member => unquoted l (List.mem_cons_of_mem _ member)) placedLater behind
          refine ⟨by simp [Edit.oldText_copies, old], ?_⟩
          rw [Edit.newText_append, Edit.newText_copies, map_fst_literalMarks, shape, shape,
            ← Lexeme.marks_literal body]
          exact .same renamed

end Lines

/-- **Renaming keeps the lexical structure of a line.**  Let every key be a dotted name and
every replacement an identifier with two underscores in a row, and let no token of the line
hold a quote.  Then the renamed line, lexed in the same state, leaves the same string open;
its segments have the same kinds, and literal text is the same; and its tokens are those of
the line, with the run of identifiers and dots under each key that was swapped collapsed
into one identifier, the replacement. -/
theorem renaming_keeps_lexical_structure (r : Renaming)
    (lexical : ∀ rule ∈ r.rules, rule.Lexical) (keep : List Nat) (state : Option Quote)
    (line : List Char)
    (unquoted : ∀ t ∈ (lexFrom state line).1.tokens, ∀ q : Quote, q.char ∉ t.text.toList) :
    (r.relexed keep state line).2 = (lexFrom state line).2 ∧
    List.Forall₂ SameShape (lexFrom state line).1.segments
      (r.relexed keep state line).1.segments ∧
    ∃ edits, Edit.Placed r none edits ∧ Edit.oldText edits = line ∧
      Edit.newText edits = r.line keep (lexFrom state line).1 ∧
      Collapses edits (lexFrom state line).1.tokens (r.relexed keep state line).1.tokens := by
  have unquoted' : ∀ l ∈ lexLine state line, l.Unquoted := by
    intro l member
    cases l with
    | token kind text =>
        obtain ⟨t, inside, same⟩ := exists_mem_tokensFrom member 0
        intro q
        simpa [same] using unquoted t inside q
    | _ => trivial
  obtain ⟨edits, marks, new, placed⟩ :=
    Renaming.exists_edits lexical keep (segmentsOf (lexLine state line)) 0 none
  rw [Segment.marksOf_segmentsOf] at marks
  obtain ⟨old, renamed⟩ := renamed_lexLine lexical unquoted' placed marks
  have relexed : r.relexed keep state line = lexFrom state (Edit.newText edits) := by
    rw [new]
    rfl
  rw [relexed]
  exact ⟨renamed.openString_eq, renamed.segmentsOf_alike, edits, placed, old, new,
    renamed.collapses (List.nil_append edits).symm⟩

/-- A dotted name and a single name to be replaced. -/
def callRenaming : Renaming :=
  ⟨[⟨"a.f".toList, "a__f".toList⟩, ⟨"x".toList, "m__x".toList⟩]⟩

/-- A call with a name outside strings, one in a field and one in a comment, after the end of
a string that an earlier line opened. -/
def callLine : List Char :=
  "x\"\"\".join(a.f(x, f'x\x7bx\x7d')) # x".toList

/-- All of it at once: a string that ends, a key of two words, and a field. -/
theorem renaming_keeps_lexical_structure_callLine :
    (∀ rule ∈ callRenaming.rules, rule.Lexical) ∧
    (∀ t ∈ (lexFrom (some .double) callLine).1.tokens, ∀ q : Quote, q.char ∉ t.text.toList) ∧
    callRenaming.line [] (lexFrom (some .double) callLine).1 =
      "x\"\"\".join(a__f(m__x, f'x\x7bm__x\x7d')) # x".toList ∧
    (callRenaming.relexed [] (some .double) callLine).2 = (lexFrom (some .double) callLine).2 ∧
    List.Forall₂ SameShape (lexFrom (some .double) callLine).1.segments
      (callRenaming.relexed [] (some .double) callLine).1.segments ∧
    ∃ edits, Edit.Placed callRenaming none edits ∧ Edit.oldText edits = callLine ∧
      Edit.newText edits = callRenaming.line [] (lexFrom (some .double) callLine).1 ∧
      Collapses edits (lexFrom (some .double) callLine).1.tokens
        (callRenaming.relexed [] (some .double) callLine).1.tokens := by
  have dotted : IsDotted "a.f".toList :=
    @IsDotted.dot ['a'] ['f'] (by decide) (by decide) (.word (by decide) (by decide))
  have lexical : ∀ rule ∈ callRenaming.rules, rule.Lexical := by
    intro rule member
    simp only [callRenaming, List.mem_cons, List.not_mem_nil, or_false] at member
    rcases member with rfl | rfl
    · exact ⟨dotted, by decide, by decide⟩
    · exact ⟨.word (by decide) (by decide), by decide, by decide⟩
  have unquoted : ∀ q : Quote, ∀ t ∈ (lexFrom (some .double) callLine).1.tokens,
      q.char ∉ t.text.toList := by
    intro q
    cases q with
    | single => decide +kernel
    | double => decide +kernel
  exact ⟨lexical, fun t member q => unquoted q t member, by decide +kernel,
    renaming_keeps_lexical_structure callRenaming lexical [] (some .double) callLine
      fun t member q => unquoted q t member⟩

end Amalgam
