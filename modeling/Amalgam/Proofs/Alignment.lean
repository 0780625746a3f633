import Amalgam.Proofs.LexicalGrammar
import Amalgam.Renaming

/-!
# A renamed line against the line it was

A renaming walks through the code segments of a line and either copies a character or
swaps a key for its replacement.  A list of such **edits** is an alignment of the line with
the renamed line.  `Renaming.exists_edits` has one for every line, and everything that is
shown about a renamed line later is shown about an alignment, where no segment, offset or
rule table is left.

Each character of a line is **marked** with the kind of the segment it is in.  Marks are
simply appended where segments are joined, so an alignment can be cut at the border of any
lexeme: a key is a stretch of code, and a swap cannot reach into a literal, nor begin
inside a word or a number, since a key begins with a character that starts a name and the
character in front of it ends none.

## Main statements

* `Edit`, `Edit.Placed` — alignments
* `Renaming.exists_edits` — what a renaming does is an alignment
* `Edit.split_copied`, `Edit.split_literal` — where alignments can be cut
* `Edit.startAlike` — the two texts start alike
-/

namespace Amalgam

/-! ### Marks -/

/-- A character and the kind of segment it is in. -/
abbrev Mark := Char × Segment.Kind

/-- The characters of a stretch. -/
def Segment.marks (s : Segment) : List Mark :=
  s.text.map (·, s.kind)

/-- The characters of segments. -/
def Segment.marksOf (segments : List Segment) : List Mark :=
  segments.flatMap Segment.marks

/-- The characters of a lexeme. -/
def Lexeme.marks (l : Lexeme) : List Mark :=
  Segment.marksOf l.pieces

/-- A stretch of code. -/
def codeMarks (text : List Char) : List Mark :=
  text.map (·, .code)

/-- A stretch of literal text. -/
def literalMarks (text : List Char) : List Mark :=
  text.map (·, .literal)

@[simp] theorem map_fst_codeMarks (text : List Char) : (codeMarks text).map Prod.fst = text := by
  simp [codeMarks, Function.comp_def]

@[simp] theorem map_fst_literalMarks (text : List Char) :
    (literalMarks text).map Prod.fst = text := by
  simp [literalMarks, Function.comp_def]

namespace Segment

theorem marksOf_cons (s : Segment) (rest : List Segment) :
    marksOf (s :: rest) = s.marks ++ marksOf rest := List.flatMap_cons

/-- Joining code to code changes no marks. -/
theorem marksOf_push (s : Segment) (rest : List Segment) :
    marksOf (push s rest) = s.marks ++ marksOf rest := by
  obtain ⟨kind, text⟩ := s
  unfold push
  split
  next empty =>
    rw [show text = [] from empty]
    rfl
  next =>
    split
    next isCode =>
      rw [show kind = .code from isCode]
      simp [marksOf_cons, marks]
    next => exact marksOf_cons _ _

theorem marksOf_segmentsOf (ls : List Lexeme) :
    marksOf (segmentsOf ls) = ls.flatMap Lexeme.marks := by
  have pushed : ∀ pieces : List Segment, marksOf (pieces.foldr push []) = marksOf pieces := by
    intro pieces
    induction pieces with
    | nil => rfl
    | cons piece rest ih => rw [List.foldr_cons, marksOf_push, ih, marksOf_cons]
  rw [segmentsOf, pushed, marksOf, List.flatMap_assoc]
  rfl

theorem map_fst_marksOf (segments : List Segment) :
    (marksOf segments).map Prod.fst = textOf segments := by
  simp [marksOf, textOf, List.map_flatMap, marks, Function.comp_def]

end Segment

/-- The last character of a text that is not empty. -/
theorem getLast?_cons_orElse (c : Char) (cs : List Char) (before : Option Char) :
    ((c :: cs).getLast? <|> before) = (cs.getLast? <|> some c) := by
  rw [List.getLast?_cons]
  cases cs.getLast? <;> rfl

/-! ### Keys and replacements -/

/-- **Identifiers joined by dots**, none of them a word that the lexer tells apart. -/
inductive IsDotted : List Char → Prop where
  | word {text : List Char} (identifier : isIdentifierText text = true)
      (plain : Token.Kind.ofWord text = .ident) : IsDotted text
  | dot {text rest : List Char} (identifier : isIdentifierText text = true)
      (plain : Token.Kind.ofWord text = .ident) (later : IsDotted rest) :
      IsDotted (text ++ '.' :: rest)

/-- **A rule of the lexical kind**: it replaces a dotted name by an identifier with two
underscores in a row. -/
structure Renaming.Rule.Lexical (rule : Renaming.Rule) : Prop where
  dotted : IsDotted rule.key
  identifier : isIdentifierText rule.replacement = true
  underscores : ['_', '_'] <:+: rule.replacement

/-- A dotted name begins as a name does. -/
theorem IsDotted.start {key : List Char} (dotted : IsDotted key) :
    ∃ c cs, key = c :: cs ∧ isNameStart c = true := by
  have begins : ∀ {text rest : List Char}, isIdentifierText text = true →
      ∃ c cs, text ++ rest = c :: cs ∧ isNameStart c = true := by
    intro text rest identifier
    cases text with
    | nil => cases identifier
    | cons c cs =>
        rw [isIdentifierText, Bool.and_eq_true] at identifier
        exact ⟨c, cs ++ rest, rfl, identifier.1⟩
  cases dotted with
  | word identifier =>
      rw [← List.append_nil key]
      exact begins identifier
  | dot identifier => exact begins identifier

theorem IsDotted.chars {key : List Char} (dotted : IsDotted key) :
    ∀ c ∈ key, isNameChar c = true ∨ c = '.' := by
  induction dotted with
  | word identifier => exact fun c member => Or.inl (isIdentifierText.all identifier c member)
  | dot identifier _ _ ih =>
      intro c member
      rcases List.mem_append.mp member with word | later
      · exact Or.inl (isIdentifierText.all identifier c word)
      · rcases List.mem_cons.mp later with point | later
        · exact Or.inr point
        · exact ih c later

/-- The characters of dotted names are told from all others. -/
theorem ne_of_isNameChar_or_dot {c d : Char} (inside : isNameChar c = true ∨ c = '.')
    (noName : isNameChar d = false) (noDot : d ≠ '.') : c ≠ d := by
  rintro rfl
  rcases inside with name | dot
  · rw [name] at noName
    cases noName
  · exact noDot dot

namespace Renaming.Rule.Lexical

variable {rule : Renaming.Rule} (lexical : rule.Lexical)

include lexical

theorem key_ne_nil : rule.key ≠ [] := by
  obtain ⟨c, cs, key, -⟩ := lexical.dotted.start
  rw [key]
  exact List.cons_ne_nil c cs

theorem replacement_ne_nil : rule.replacement ≠ [] := by
  intro empty
  have identifier := lexical.identifier
  rw [empty] at identifier
  cases identifier

theorem replacement_chars : ∀ c ∈ rule.replacement, isNameChar c = true ∨ c = '.' :=
  fun c member => Or.inl (isIdentifierText.all lexical.identifier c member)

end Renaming.Rule.Lexical

/-! ### Edits -/

/-- A character that stays, or a key that is replaced. -/
inductive Edit where
  | copy (mark : Mark)
  | swap (rule : Renaming.Rule)

namespace Edit

/-- The characters that were there. -/
def marks : Edit → List Mark
  | copy mark => [mark]
  | swap rule => codeMarks rule.key

/-- The text that is there afterwards. -/
def new : Edit → List Char
  | copy mark => [mark.1]
  | swap rule => rule.replacement

/-- The characters of the line that was. -/
def marksOf (edits : List Edit) : List Mark :=
  edits.flatMap marks

/-- The line that was. -/
def oldText (edits : List Edit) : List Char :=
  (marksOf edits).map Prod.fst

/-- The line that is. -/
def newText (edits : List Edit) : List Char :=
  edits.flatMap new

/-- Edits that change nothing. -/
def copies (ms : List Mark) : List Edit :=
  ms.map copy

/-- **Swaps are where they may be**: after `before`, which ends no name, and in front of a
character that does not continue one. -/
def Placed (r : Renaming) : Option Char → List Edit → Prop
  | _, [] => True
  | _, copy mark :: later => Placed r (some mark.1) later
  | before, swap rule :: later =>
    rule ∈ r.rules ∧ Renaming.startsAfter before = true ∧
      Renaming.endsBefore (oldText later).head? = true ∧ Placed r rule.key.getLast? later

theorem marksOf_cons (edit : Edit) (later : List Edit) :
    marksOf (edit :: later) = edit.marks ++ marksOf later := List.flatMap_cons

theorem oldText_swap (rule : Renaming.Rule) (later : List Edit) :
    oldText (swap rule :: later) = rule.key ++ oldText later := by
  rw [oldText, marksOf_cons, List.map_append, Edit.marks, map_fst_codeMarks, oldText]

theorem newText_swap (rule : Renaming.Rule) (later : List Edit) :
    newText (swap rule :: later) = rule.replacement ++ newText later := List.flatMap_cons

@[simp] theorem marksOf_append (first second : List Edit) :
    marksOf (first ++ second) = marksOf first ++ marksOf second := List.flatMap_append

@[simp] theorem oldText_append (first second : List Edit) :
    oldText (first ++ second) = oldText first ++ oldText second := by
  simp [oldText]

@[simp] theorem newText_append (first second : List Edit) :
    newText (first ++ second) = newText first ++ newText second := List.flatMap_append

@[simp] theorem marksOf_copies (ms : List Mark) : marksOf (copies ms) = ms := by
  simp [marksOf, copies, List.flatMap_map, marks]

theorem oldText_copies (ms : List Mark) : oldText (copies ms) = ms.map Prod.fst := by
  rw [oldText, marksOf_copies]

@[simp] theorem newText_copies (ms : List Mark) : newText (copies ms) = ms.map Prod.fst := by
  induction ms with
  | nil => rfl
  | cons m ms ih => exact congrArg (m.1 :: ·) ih

theorem placed_copies {r : Renaming} {ms : List Mark} {later : List Edit} {before : Option Char} :
    Placed r before (copies ms ++ later) ↔
      Placed r ((ms.map Prod.fst).getLast? <|> before) later := by
  induction ms generalizing before with
  | nil => simp [copies]
  | cons m ms ih =>
      change Placed r (some m.1) (copies ms ++ later) ↔ _
      rw [ih, List.map_cons, getLast?_cons_orElse]

end Edit

/-! ### What a renaming does -/

namespace Renaming

variable {r : Renaming}

/-- Characters that belong to a key already replaced are passed over. -/
theorem code_skip (r : Renaming) (keep : List Nat) (after : Option Char) (skip : Nat) :
    ∀ pos before cs, skip ≤ cs.length → ∃ pos', r.code keep after skip pos before cs =
      r.code keep after 0 pos' ((cs.take skip).getLast? <|> before) (cs.drop skip) := by
  induction skip with
  | zero => exact fun pos before cs _ => ⟨pos, by simp⟩
  | succ skip ih =>
      intro pos before cs enough
      cases cs with
      | nil => simp at enough
      | cons c cs =>
          obtain ⟨pos', same⟩ := ih (pos + c.utf8Size) (some c) cs (Nat.le_of_succ_le_succ enough)
          refine ⟨pos', ?_⟩
          rw [code, same, List.take_succ_cons, List.drop_succ_cons, getLast?_cons_orElse]

/-- The rule that counts at a place. -/
theorem ruleAt?_eq_some {after : Option Char} {cs : List Char} {rule : Rule}
    (found : r.ruleAt? after cs = some rule) :
    rule ∈ r.rules ∧ ∃ rest, cs = rule.key ++ rest ∧ endsBefore (rest.head? <|> after) = true := by
  have holds := List.find?_some found
  rw [Bool.and_eq_true] at holds
  obtain ⟨rest, text⟩ := List.isPrefixOf_iff_prefix.mp holds.1
  refine ⟨List.mem_of_find?_eq_some found, rest, text.symm, ?_⟩
  rw [← text, List.drop_left] at holds
  exact holds.2

/-- **The edits make one text of a stretch of code**, in front of any edits that start with
`after`. -/
structure Aligns (r : Renaming) (after before : Option Char) (cs renamed : List Char)
    (edits : List Edit) : Prop where
  old : Edit.marksOf edits = codeMarks cs
  new : Edit.newText edits = renamed
  placed : ∀ later, (Edit.oldText later).head? = after →
    Edit.Placed r (cs.getLast? <|> before) later → Edit.Placed r before (edits ++ later)

theorem Aligns.copy {after before : Option Char} {c : Char} {cs renamed : List Char}
    {edits : List Edit} (aligns : r.Aligns after (some c) cs renamed edits) :
    r.Aligns after before (c :: cs) (c :: renamed) (.copy (c, .code) :: edits) where
  old := congrArg ((c, Segment.Kind.code) :: ·) aligns.old
  new := congrArg (c :: ·) aligns.new
  placed later head holds := by
    rw [getLast?_cons_orElse] at holds
    exact aligns.placed later head holds

theorem Aligns.swap {after before : Option Char} {rule : Rule} {rest renamed : List Char}
    {edits : List Edit} (member : rule ∈ r.rules) (some : rule.key ≠ [])
    (starts : startsAfter before = true) (ends : endsBefore (rest.head? <|> after) = true)
    (aligns : r.Aligns after rule.key.getLast? rest renamed edits) :
    r.Aligns after before (rule.key ++ rest) (rule.replacement ++ renamed)
      (.swap rule :: edits) where
  old := by
    rw [codeMarks, List.map_append]
    exact congrArg (codeMarks rule.key ++ ·) aligns.old
  new := congrArg (rule.replacement ++ ·) aligns.new
  placed later head holds := by
    have behind : Edit.oldText edits = rest := by
      rw [Edit.oldText, aligns.old, map_fst_codeMarks]
    refine ⟨member, starts, ?_, aligns.placed later head ?_⟩
    · change endsBefore (Edit.oldText (edits ++ later)).head? = true
      rw [Edit.oldText_append, behind, List.head?_append, head]
      cases first : rest.head? <;> simpa [first] using ends
    · rw [List.getLast?_append] at holds
      cases last : rest.getLast? with
      | some c => simpa [last] using holds
      | none =>
          have ended := List.getLast?_eq_some_getLast some
          simpa [last, ended] using holds

/-- What is done to the rest of a code segment is an alignment. -/
theorem exists_code_edits (lexical : ∀ rule ∈ r.rules, rule.Lexical) (keep : List Nat)
    (after : Option Char) (cs : List Char) :
    ∀ pos before, ∃ edits, r.Aligns after before cs (r.code keep after 0 pos before cs) edits := by
  -- a swap passes over a whole key, so the induction is on the length
  induction n : cs.length using Nat.strong_induction_on generalizing cs with
  | _ n ih =>
      intro pos before
      cases cs with
      | nil => exact ⟨[], rfl, rfl, fun later _ placed => by simpa using placed⟩
      | cons c cs =>
          subst n
          obtain ⟨copied, aligns⟩ :=
            ih cs.length (Nat.lt_succ_self _) cs rfl (pos + c.utf8Size) (some c)
          rw [code]
          split
          next here =>
            split
            next rule found =>
              rw [Bool.and_eq_true, Bool.and_eq_true] at here
              obtain ⟨member, rest, text, ends⟩ := ruleAt?_eq_some found
              obtain ⟨d, ds, key, -⟩ := (lexical rule member).dotted.start
              obtain ⟨rfl, rfl⟩ : c = d ∧ cs = ds ++ rest := by
                rw [key] at text
                exact List.cons.inj text
              have passed : rule.key.length - 1 = ds.length := by rw [key]; rfl
              obtain ⟨pos', same⟩ := code_skip r keep after ds.length
                (pos + c.utf8Size) (some c) (ds ++ rest) (by simp)
              have last : (ds.getLast? <|> some c) = rule.key.getLast? := by
                rw [key, List.getLast?_cons]
                cases ds.getLast? <;> rfl
              rw [List.take_left, List.drop_left, last] at same
              have shorter : rest.length < (c :: (ds ++ rest)).length := by
                rw [List.length_cons, List.length_append]
                omega
              obtain ⟨edits, swapped⟩ := ih rest.length shorter rest rfl pos' rule.key.getLast?
              rw [text, passed, same]
              exact ⟨_, swapped.swap member (lexical rule member).key_ne_nil here.1.1 ends⟩
            next => exact ⟨_, aligns.copy⟩
          next => exact ⟨_, aligns.copy⟩

/-- **What a renaming does to segments is an alignment.** -/
theorem exists_edits (lexical : ∀ rule ∈ r.rules, rule.Lexical) (keep : List Nat)
    (segments : List Segment) :
    ∀ pos before, ∃ edits, Edit.marksOf edits = Segment.marksOf segments ∧
      Edit.newText edits = r.segments keep pos before segments ∧ Edit.Placed r before edits := by
  induction segments with
  | nil => exact fun pos before => ⟨[], rfl, rfl, trivial⟩
  | cons s rest ih =>
      intro pos before
      obtain ⟨kind, text⟩ := s
      obtain ⟨later, old, new, placed⟩ := ih (pos + byteWidth text) (text.getLast? <|> before)
      cases kind with
      | literal =>
          refine ⟨Edit.copies (literalMarks text) ++ later, ?_, ?_, ?_⟩
          · rw [Edit.marksOf_append, Edit.marksOf_copies, old]
            rfl
          · rw [Edit.newText_append, Edit.newText_copies, map_fst_literalMarks, new]
            rfl
          · rw [Edit.placed_copies, map_fst_literalMarks]
            exact placed
      | code =>
          obtain ⟨edits, aligns⟩ := exists_code_edits lexical keep (Segment.textOf rest).head? text
            pos before
          have head : (Edit.oldText later).head? = (Segment.textOf rest).head? := by
            rw [Edit.oldText, old, Segment.map_fst_marksOf]
          refine ⟨edits ++ later, ?_, ?_, aligns.placed later head placed⟩
          · rw [Edit.marksOf_append, aligns.old, old]
            rfl
          · rw [Edit.newText_append, aligns.new, new]
            rfl

end Renaming

/-! ### Cutting an alignment -/

/-- No swap can begin in the marks: they are literal, or start no name, or come after a
character that a name cannot start after. -/
def Stuck : Option Char → List Mark → Prop
  | _, [] => True
  | before, mark :: later =>
    (mark.2 = .literal ∨ Renaming.startsAfter before = false ∨ isNameStart mark.1 = false) ∧
      Stuck (some mark.1) later

theorem stuck_literalMarks (before : Option Char) (text : List Char) :
    Stuck before (literalMarks text) := by
  induction text generalizing before with
  | nil => trivial
  | cons c cs ih => exact ⟨Or.inl rfl, ih (some c)⟩

namespace Edit

variable {r : Renaming} {before : Option Char} {edits : List Edit}
  (lexical : ∀ rule ∈ r.rules, rule.Lexical)

/-- What is behind edits matters to none of them. -/
theorem Placed.left {first later : List Edit} (placed : Placed r before (first ++ later)) :
    Placed r before first := by
  induction first generalizing before with
  | nil => trivial
  | cons edit first ih =>
      cases edit with
      | copy mark => exact ih placed
      | swap rule =>
          obtain ⟨member, starts, ends, placed⟩ := placed
          refine ⟨member, starts, ?_, ih placed⟩
          cases old : oldText first with
          | nil => rfl
          | cons c cs => simpa [old] using ends

/-- **Edits can be cut in front of a literal.** -/
theorem split_literal (placed : Placed r before edits) {us ms : List Mark}
    (literal : ∀ mark, ms.head? = some mark → mark.2 = .literal)
    (marks : marksOf edits = us ++ ms) :
    ∃ first later before', edits = first ++ later ∧ marksOf first = us ∧ marksOf later = ms ∧
      Placed r before' later := by
  induction edits generalizing before us with
  | nil =>
      obtain ⟨rfl, rfl⟩ := List.append_eq_nil_iff.mp marks.symm
      exact ⟨[], [], before, rfl, rfl, rfl, placed⟩
  | cons edit later ih =>
      cases us with
      | nil => exact ⟨[], edit :: later, before, rfl, rfl, marks, placed⟩
      | cons u us =>
          cases edit with
          | copy mark =>
              obtain ⟨rfl, rest⟩ := List.cons.inj marks
              obtain ⟨first, last, before', rfl, old, rest, placed⟩ := ih placed rest
              exact ⟨copy mark :: first, last, before', rfl, congrArg (mark :: ·) old, rest, placed⟩
          | swap rule =>
              rw [marksOf_cons, Edit.marks] at marks
              obtain ⟨rest, whole, behind⟩ : ∃ rest, u :: us = codeMarks rule.key ++ rest ∧
                  marksOf later = rest ++ ms := by
                rcases List.append_eq_append_iff.mp marks with
                  ⟨rest, whole, behind⟩ | ⟨rest, key, behind⟩
                · exact ⟨rest, whole, behind⟩
                · -- a key that reached beyond would have a literal in it
                  cases rest with
                  | nil => exact ⟨[], by rw [key, List.append_nil, List.append_nil], behind.symm⟩
                  | cons mark rest =>
                      have inKey : mark ∈ codeMarks rule.key := by rw [key]; simp
                      obtain ⟨c, -, rfl⟩ := List.mem_map.mp inKey
                      cases literal _ (by rw [behind]; rfl)
              obtain ⟨first, last, before', rfl, old, rest', placed⟩ := ih placed.2.2.2 behind
              refine ⟨swap rule :: first, last, before', rfl, ?_, rest', placed⟩
              rw [marksOf_cons, old, whole]
              rfl

include lexical

/-- The first edit copies the first mark, or swaps a key that begins with it. -/
theorem uncons (placed : Placed r before edits) {mark : Mark} {ms : List Mark}
    (marks : marksOf edits = mark :: ms) :
    (∃ later, edits = copy mark :: later ∧ marksOf later = ms ∧ Placed r (some mark.1) later) ∨
    ∃ rule later, edits = swap rule :: later ∧ mark.2 = .code ∧ isNameStart mark.1 = true ∧
      Renaming.startsAfter before = true := by
  cases edits with
  | nil => cases marks
  | cons edit later =>
      cases edit with
      | copy other =>
          obtain ⟨rfl, rest⟩ := List.cons.inj marks
          exact Or.inl ⟨later, rfl, rest, placed⟩
      | swap rule =>
          obtain ⟨c, cs, key, start⟩ := (lexical rule placed.1).dotted.start
          rw [marksOf_cons, Edit.marks, key] at marks
          obtain ⟨rfl, -⟩ := List.cons.inj marks
          exact Or.inr ⟨rule, later, rfl, rfl, start, placed.2.1⟩

/-- **Marks in which no swap can begin are copied.** -/
theorem split_copied (placed : Placed r before edits) {us ms : List Mark}
    (stuck : Stuck before us) (marks : marksOf edits = us ++ ms) :
    ∃ later before', edits = copies us ++ later ∧ marksOf later = ms ∧ Placed r before' later := by
  induction us generalizing before edits with
  | nil => exact ⟨edits, before, rfl, marks, placed⟩
  | cons u us ih =>
      obtain ⟨held, stuck⟩ := stuck
      rcases uncons lexical placed marks with
        ⟨later, rfl, rest, placed⟩ | ⟨rule, later, rfl, code, start, free⟩
      · obtain ⟨last, before', rfl, rest, placed⟩ := ih placed stuck rest
        exact ⟨last, before', rfl, rest, placed⟩
      · rcases held with literal | held | other
        · rw [code] at literal
          cases literal
        · rw [free] at held
          cases held
        · rw [start] at other
          cases other

/-- **The line starts as it did**, or both lines start with a name. -/
theorem startAlike (placed : Placed r before edits) :
    StartAlike (oldText edits) (newText edits) := by
  cases edits with
  | nil => exact Or.inl rfl
  | cons edit later =>
      cases edit with
      | copy mark => exact Or.inl rfl
      | swap rule =>
          obtain ⟨c, cs, key, start⟩ := (lexical rule placed.1).dotted.start
          have word := (lexical rule placed.1).identifier
          cases replacement : rule.replacement with
          | nil =>
              rw [replacement] at word
              cases word
          | cons d ds =>
              rw [replacement, isIdentifierText, Bool.and_eq_true] at word
              refine Or.inr ⟨c, d, ?_, ?_, start, word.1⟩
              · rw [oldText_swap, key]
                rfl
              · rw [newText_swap, replacement]
                rfl

/-- Edits of nothing are none. -/
theorem eq_nil_of_marksOf (placed : Placed r before edits) (none : marksOf edits = []) :
    edits = [] := by
  cases edits with
  | nil => rfl
  | cons edit later =>
      rw [marksOf_cons] at none
      have own := (List.append_eq_nil_iff.mp none).1
      cases edit with
      | copy mark => cases own
      | swap rule => exact absurd (List.map_eq_nil_iff.mp own) (lexical rule placed.1).key_ne_nil

/-- Nothing is made of nothing, and nothing of something. -/
theorem newText_eq_nil_iff (placed : Placed r before edits) :
    newText edits = [] ↔ oldText edits = [] := by
  rw [← List.head?_eq_none_iff, ← List.head?_eq_none_iff]
  rcases startAlike lexical placed with same | ⟨c, d, head, head', -⟩
  · rw [same]
  · simp [head, head']

end Edit

end Amalgam
