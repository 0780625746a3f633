import Amalgam.Proofs.NameEdges
import Amalgam.Proofs.WrittenWords
import Amalgam.Statement

/-!
# Imports that are spread over lines

The names of an import may stand in parentheses, and then the statement may go on over any
number of lines.  A reader that meets the opening parenthesis holds the lines back until it
meets the closing one.  It then puts their program text on one line, with a space between the
lines, and reads that line.

Whether that is the statement that was spread depends on three things.  No line but the last
one may close the statement, and the first one may not be a statement by itself: the grammar
says that a parenthesis is closed by the last word and by no other.  The text of the lines must
write the words of the statement: blanks and comments do not show in words, and a space
separates what a break separated (`writes_codeText`).  And a comment must not show in the
program text, whatever it contains (`WritesLine.codeText`).

## Main statements

* `WritesLines`, `Spread` — layouts over several lines
* `ImportStatement.exists_enclosed` — where the parentheses stand
* `Reader.feed_opening`, `Reader.feed_held`, `Reader.feedEach_held` — lines that are held back
* `Pending.close_ofLines` — what is read from them
* `Reader.feedEach_spread`
-/

namespace Amalgam

/-! ### Layouts -/

/-- **The lines write the words**, with breaks between words. -/
inductive WritesLines : List (List Char) → List Word → Prop where
  | nil : WritesLines [] []
  | cons {line : List Char} {lines : List (List Char)} {ws rest : List Word}
      (first : WritesLine line ws) (later : WritesLines lines rest) :
      WritesLines (line :: lines) (ws ++ rest)

/-- **A layout over two or more lines**: the first one has the opening parenthesis, and the
closing one is the last word of the last line.  Lines between them may be blank. -/
def Spread (first : List Char) (middle : List (List Char)) (last : List Char) (ws : List Word) :
    Prop :=
  ∃ opening inner closing mark, ws = opening ++ (inner ++ (closing ++ [(.rparen, mark)])) ∧
    WritesLine first opening ∧ .lparen ∈ opening.map Prod.fst ∧ WritesLines middle inner ∧
    WritesLine last (closing ++ [(.rparen, mark)])

variable {ws rest : List Word} {forms : List ImportForm} {lines : List (List Char)}
  {line first : List Char} {kind : Token.Kind}

theorem WritesLines.concat (early : WritesLines lines ws) (last : WritesLine line rest) :
    WritesLines (lines ++ [line]) (ws ++ rest) := by
  induction early with
  | nil =>
      have single := WritesLines.cons last .nil
      rwa [List.append_nil] at single
  | cons first _ ih =>
      rw [List.append_assoc]
      exact .cons first ih

/-- Lines without strings write their words. -/
theorem WritesLines.of_isPlainLine (plain : ∀ line ∈ lines, isPlainLine line = true) :
    WritesLines lines (lines.flatMap fun line => (lexFresh line).tokens.map Token.word) := by
  induction lines with
  | nil => exact .nil
  | cons line lines ih =>
      have first := writesLine_of_isPlainLine (plain line List.mem_cons_self)
      exact .cons first (ih fun l member => plain l (List.mem_cons_of_mem _ member))

/-- **Any lines without strings are a layout** of their words, if the first one has an opening
parenthesis and the last one ends with a closing one. -/
theorem spread_of_isPlainLine {last : List Char} {middle : List (List Char)}
    (plain : ∀ line ∈ first :: (middle ++ [last]), isPlainLine line = true)
    (opened : .lparen ∈ (lexFresh first).tokens.map Token.kind)
    (closed : ((lexFresh last).tokens.map Token.kind).getLast? = some .rparen)
    (words : ws = (first :: (middle ++ [last])).flatMap fun line =>
      (lexFresh line).tokens.map Token.word) : Spread first middle last ws := by
  obtain ⟨early, t, ends, mark⟩ : ∃ early t, (lexFresh last).tokens = early ++ [t] ∧
      t.kind = .rparen := by
    rw [List.getLast?_map, Option.map_eq_some_iff] at closed
    obtain ⟨t, found, same⟩ := closed
    obtain ⟨early, whole⟩ := List.getLast?_eq_some_iff.mp found
    exact ⟨early, t, whole, same⟩
  have lastLine := writesLine_of_isPlainLine (plain last (by simp))
  rw [List.flatMap_cons, List.flatMap_append, List.flatMap_singleton] at words
  rw [ends, List.map_append, List.map_singleton, Token.word, mark] at lastLine words
  refine ⟨_, _, _, t.text, words, writesLine_of_isPlainLine (plain first (by simp)), ?_,
    .of_isPlainLine fun line member => plain line (by simp [member]), lastLine⟩
  rw [List.map_map]
  exact opened

/-! ### Where the parentheses stand -/

/-- The words hold none of the kind. -/
theorem not_mem_kinds (apart : ∀ w ∈ ws, w.1 ≠ kind) :
    kind ∉ ws.map Prod.fst := by
  intro member
  obtain ⟨w, inside, same⟩ := List.mem_map.mp member
  exact apart w inside same

/-- **A statement with a parenthesis** is `from dotted import ( names )`, and there is no other
parenthesis in it. -/
theorem ImportStatement.exists_enclosed (statement : ImportStatement ws forms)
    (paren : .lparen ∈ ws.map Prod.fst) :
    ∃ word dotted word' opening inner closing,
      ws = (.fromWord, word) :: (dotted ++ (.importWord, word') :: (.lparen, opening) ::
          (inner ++ [(.rparen, closing)])) ∧
        .lparen ∉ dotted.map Prod.fst ∧ .rparen ∉ (dotted ++ inner).map Prod.fst := by
  have listed : ∀ (kind : Token.Kind) {source : String} {vs : List Word},
      SepBy .comma (SymbolClause source) vs forms → kind ≠ .comma → kind ≠ .ident →
      kind ≠ .asWord → kind ∉ vs.map Prod.fst := by
    intro kind source vs names comma ident asWord
    exact not_mem_kinds
      (names.forall_kind_symbolClause (P := (· ≠ kind)) comma.symm ident.symm asWord.symm)
  cases statement with
  | modules word clauses =>
      have none := not_mem_kinds (clauses.forall_kind_moduleClause
        (P := (· ≠ .lparen)) (by decide) (by decide) (by decide) (by decide))
      simp [none] at paren
  | @symbols ws _ source _ word word' dotted list =>
      have early : .lparen ∉ ws.map Prod.fst := not_mem_kinds
        (dotted.forall_kind (P := (· ≠ .lparen)) (by decide) (by decide))
      have early' : .rparen ∉ ws.map Prod.fst := not_mem_kinds
        (dotted.forall_kind (P := (· ≠ .rparen)) (by decide) (by decide))
      cases list with
      | star mark => simp [early] at paren
      | names names =>
          have none := listed .lparen names (by decide) (by decide) (by decide)
          simp [early, none] at paren
      | @enclosed inner trailing _ opening closing names optional =>
          refine ⟨word, ws, word', opening, inner ++ trailing, closing, rfl, early, ?_⟩
          have none := listed .rparen names (by decide) (by decide) (by decide)
          have none' : .rparen ∉ trailing.map Prod.fst := by cases optional <;> simp
          rw [List.map_append, List.map_append, List.mem_append, List.mem_append, not_or, not_or]
          exact ⟨early', none, none'⟩

/-- The first line of a statement that goes on has the word `import` in front of the opening
parenthesis, and nothing but the last word closes it. -/
theorem ImportStatement.exists_opening {opening : List Word} {mark : String}
    (statement : ImportStatement (opening ++ (rest ++ [(.rparen, mark)])) forms)
    (opened : .lparen ∈ opening.map Prod.fst) :
    (∃ word dotted word' paren seen, opening =
        (.fromWord, word) :: (dotted ++ (.importWord, word') :: (.lparen, paren) :: seen)) ∧
      .rparen ∉ (opening ++ rest).map Prod.fst := by
  obtain ⟨word, dotted, word', bracket, inner, closing, whole, early, apart⟩ :=
    statement.exists_enclosed (by rw [List.map_append]; exact List.mem_append_left _ opened)
  have same : opening ++ rest = (.fromWord, word) :: (dotted ++ [(.importWord, word')]) ++
      (.lparen, bracket) :: inner := by
    have split : (opening ++ rest) ++ [(.rparen, mark)] =
        ((.fromWord, word) :: (dotted ++ [(.importWord, word')]) ++ (.lparen, bracket) :: inner) ++
          [(.rparen, closing)] := by
      simpa using whole
    exact List.append_inj_left' split rfl
  constructor
  · -- the opening parenthesis is not in front of the word
    rcases List.append_eq_append_iff.mp same with ⟨behind, front, -⟩ | ⟨behind, rfl, split⟩
    · have inside := congrArg (List.map Prod.fst) front
      simp only [List.map_append, List.map_cons, List.map_nil] at inside
      have member := List.mem_append_left (behind.map Prod.fst) opened
      rw [← inside] at member
      simp [early] at member
    · cases behind with
      | nil => simp [early] at opened
      | cons w seen =>
          obtain ⟨rfl, -⟩ := List.cons.inj split
          exact ⟨word, dotted, word', bracket, seen, by simp⟩
  · rw [same]
    simpa using apart

/-! ### Lines that are held back -/

theorem hasImportParen_append (early late : List Token.Kind) :
    hasImportParen (early ++ .importWord :: .lparen :: late) = true := by
  induction early with
  | nil => rfl
  | cons kind early ih =>
      rw [List.cons_append]
      unfold hasImportParen
      split
      next => rfl
      next rest _ same =>
        cases same
        exact ih
      next same => cases same

theorem map_kind_eq_of_map_word {tokens : List Token} (words : tokens.map Token.word = ws) :
    tokens.map Token.kind = ws.map Prod.fst := by
  rw [← words, List.map_map]
  rfl

theorem WritesLine.map_kind (writes : WritesLine line ws) :
    (lexFresh line).tokens.map Token.kind = ws.map Prod.fst :=
  map_kind_eq_of_map_word writes.map_word

/-- What a reader holds back that started with `first`, at line `number`, and took `lines`. -/
def Pending.ofLines (number : Nat) (first : List Char) (lines : List (List Char)) : Pending :=
  ⟨number, (first, lexFresh first), lines.map fun line => (line, lexFresh line)⟩

namespace Reader

/-- **The first line opens the names** and is held back. -/
theorem feed_opening {first : List Char} {opening rest : List Word} {mark : String}
    {forms : List ImportForm} (writes : WritesLine first opening)
    (statement : ImportStatement (opening ++ (rest ++ [(.rparen, mark)])) forms)
    (opened : .lparen ∈ opening.map Prod.fst) (number : Nat) :
    feed {} number first = (⟨none, some (Pending.ofLines number first [])⟩, []) := by
  obtain ⟨⟨word, dotted, word', paren, seen, shape⟩, apart⟩ := statement.exists_opening opened
  rw [List.map_append, List.mem_append, not_or] at apart
  have unclosed := apart.1
  have unread : classify? (lexFresh first).tokens = none := by
    rw [Option.eq_none_iff_forall_ne_some]
    intro forms' classified
    have short := importStatement_of_classify? classified
    rw [writes.map_word] at short
    -- it would be closed
    obtain ⟨_, _, _, _, _, _, whole, -⟩ := short.exists_enclosed opened
    rw [whole] at unclosed
    simp at unclosed
  have opens : opensNameList (lexFresh first) = true := by
    unfold opensNameList
    dsimp only
    rw [writes.map_kind]
    have closed : (opening.map Prod.fst).contains .rparen = false := by
      rw [Bool.eq_false_iff, Ne, List.contains_iff_mem]
      exact unclosed
    rw [closed, shape]
    simp [hasImportParen, hasImportParen_append]
  have outside : (lexFresh first).startsInString = false := rfl
  simp only [feed, writes.lexFrom_eq, outside, unread, opens]
  rfl

/-- **A line without the closing parenthesis** is held back, too. -/
theorem feed_held {line : List Char} {ws : List Word} (writes : WritesLine line ws)
    (unclosed : .rparen ∉ ws.map Prod.fst) (number : Nat) (first : List Char)
    (lines : List (List Char)) (now : Nat) :
    feed ⟨none, some (Pending.ofLines number first lines)⟩ now line =
      (⟨none, some (Pending.ofLines number first (lines ++ [line]))⟩, []) := by
  have none : (lexFresh line).tokens.any (fun t => t.kind = .rparen) = false := by
    rw [List.any_eq_false]
    intro t member same
    rw [← writes.map_kind] at unclosed
    exact unclosed (List.mem_map.mpr ⟨t, member, of_decide_eq_true same⟩)
  simp [feed, writes.lexFrom_eq, none, Pending.ofLines]

/-- **The line with the closing parenthesis** ends what is held back. -/
theorem feed_closing {line : List Char} {ws : List Word} (writes : WritesLine line ws)
    (closed : .rparen ∈ ws.map Prod.fst) (number : Nat) (first : List Char)
    (lines : List (List Char)) (now : Nat) :
    feed ⟨none, some (Pending.ofLines number first lines)⟩ now line =
      ({}, (Pending.ofLines number first (lines ++ [line])).close) := by
  have some : (lexFresh line).tokens.any (fun t => t.kind = .rparen) = true := by
    rw [List.any_eq_true]
    rw [← writes.map_kind] at closed
    obtain ⟨t, member, same⟩ := List.mem_map.mp closed
    exact ⟨t, member, decide_eq_true same⟩
  simp [feed, writes.lexFrom_eq, some, Pending.ofLines]

/-- The reader behind the lines, and what it gave out at each of them. -/
def feedEach (r : Reader) (number : Nat) : List (List Char) → Reader × List (List Statement)
  | [] => (r, [])
  | line :: rest =>
    let next := r.feed number line
    let later := next.1.feedEach (number + 1) rest
    (later.1, next.2 :: later.2)

theorem feedEach_cons {r r' : Reader} {number : Nat} {line : List Char} {given : List Statement}
    (step : r.feed number line = (r', given)) (rest : List (List Char)) :
    r.feedEach number (line :: rest) =
      ((r'.feedEach (number + 1) rest).1, given :: (r'.feedEach (number + 1) rest).2) := by
  rw [feedEach, step]

/-- Reading goes on behind the lines that were fed. -/
theorem readFrom_append (r : Reader) (number : Nat) (lines more : List (List Char)) :
    r.readFrom number (lines ++ more) = (r.feedEach number lines).2.flatten ++
      (r.feedEach number lines).1.readFrom (number + lines.length) more := by
  induction lines generalizing r number with
  | nil => rfl
  | cons line rest ih =>
      rw [List.cons_append, readFrom, ih, feedEach, List.flatten_cons, List.append_assoc,
        List.length_cons]
      congr 3
      omega

/-- **Lines that are held back**, to the one that ends them. -/
theorem feedEach_held {middle : List (List Char)} {inner : List Word}
    (writes : WritesLines middle inner) (unclosed : .rparen ∉ inner.map Prod.fst)
    {last : List Char} {closing : List Word} (lastLine : WritesLine last closing)
    (closed : .rparen ∈ closing.map Prod.fst) (number : Nat) (first : List Char)
    (lines : List (List Char)) (now : Nat) :
    feedEach ⟨none, some (Pending.ofLines number first lines)⟩ now (middle ++ [last]) =
      ({}, List.replicate middle.length [] ++
        [(Pending.ofLines number first (lines ++ (middle ++ [last]))).close]) := by
  induction writes generalizing lines now with
  | nil =>
      rw [List.nil_append, feedEach_cons (feed_closing lastLine closed number first lines now)]
      rfl
  | @cons line middle ws rest writes _ ih =>
      rw [List.map_append, List.mem_append, not_or] at unclosed
      have step := feed_held writes unclosed.1 number first lines now
      rw [List.cons_append, feedEach_cons step, ih unclosed.2, List.append_assoc]
      rfl

end Reader

/-! ### The statement that the lines are -/

/-- The program text of lines, with a space in front of each of them. -/
theorem writes_codeText {code : List Char} (writes : Writes code ws)
    (later : WritesLines lines rest) :
    Writes (code ++ lines.flatMap fun line => ' ' :: (lexFresh line).codeText) (ws ++ rest) := by
  induction later generalizing code ws with
  | nil =>
      rw [List.flatMap_nil, List.append_nil, List.append_nil]
      exact writes
  | cons first _ ih =>
      rw [List.flatMap_cons, ← List.append_assoc, ← List.append_assoc]
      exact ih (writes.spaced first.codeText)

/-- **Closed lines are the statement that they write.** -/
theorem Pending.close_ofLines (firstLine : WritesLine first ws) (later : WritesLines lines rest)
    (statement : ImportStatement (ws ++ rest) forms) (number : Nat) :
    (Pending.ofLines number first lines).close =
      [.imports number (first :: lines) forms (lexFresh first).startsAtMargin] := by
  have text : (Pending.ofLines number first lines).codeText =
      (lexFresh first).codeText ++ lines.flatMap fun line => ' ' :: (lexFresh line).codeText := by
    rw [codeText, Pending.ofLines, List.flatMap_map]
  have writes := writes_codeText firstLine.codeText later
  rw [← text] at writes
  have classified : classify? (lexFresh (Pending.ofLines number first lines).codeText).tokens =
      some forms := by
    refine classify?_of_importStatement ?_
    rw [writes.line.map_word]
    exact statement
  have own : (Pending.ofLines number first lines).lines.map Prod.fst = first :: lines := by
    rw [Pending.ofLines, Pending.lines, List.map_cons, List.map_map]
    exact congrArg _ (List.map_id lines)
  rw [close, classified, own]
  rfl

/-! ### The margin -/

theorem isBlank_of_isLineBlank {c : Char} (blank : isLineBlank c = true) : isBlank c = true := by
  simp only [isLineBlank, Bool.or_eq_true, beq_iff_eq] at blank
  rcases blank with ((rfl | rfl) | rfl) | rfl <;> decide

/-- Behind a blank nothing stands at the margin. -/
theorem startsAtMargin_blank_cons {c : Char} (blank : isLineBlank c = true) (rest : List Char) :
    (lexFresh (c :: rest)).startsAtMargin = false := by
  obtain ⟨text, ls, read⟩ : ∃ text ls, lexemes (c :: rest) = .blank (c :: text) :: ls := by
    rcases lexemes_blank_cons blank rest with ⟨text, ls, -, joined⟩ | alone
    · exact ⟨text, ls, joined⟩
    · exact ⟨[], _, alone⟩
  have tokens : (lexFresh (c :: rest)).tokens = tokensFrom (0 + byteWidth (c :: text)) ls := by
    change tokensFrom 0 (lexemes (c :: rest)) = _
    rw [read]
    rfl
  rw [LexedLine.startsAtMargin, tokens]
  cases found : tokensFrom (0 + byteWidth (c :: text)) ls with
  | nil => rfl
  | cons t later =>
      have member : t ∈ tokensFrom (0 + byteWidth (c :: text)) ls := by
        rw [found]
        exact List.mem_cons_self
      obtain ⟨before, -, -, -, stands, -⟩ := exists_of_mem_tokensFrom member
      have positive := byteWidth_cons_pos c text
      exact beq_eq_false_iff_ne.mpr (by omega)

/-- A token at the start of a line stands at the margin. -/
theorem startsAtMargin_token_append {text rest : List Char}
    (fits : (Lexeme.token kind text).Fits rest) :
    (lexFresh (text ++ rest)).startsAtMargin = true := by
  have tokens : (lexFresh (text ++ rest)).tokens =
      tokensFrom 0 (.token kind text :: lexemes rest) :=
    congrArg (tokensFrom 0) (lexemes_append_of_fits fits)
  rw [LexedLine.startsAtMargin, tokens]
  rfl

/-- **A line that starts with a word** has it at the margin if the line is not indented. -/
theorem startsAtMargin_eq {name : String} (writes : WritesLine line ((kind, name) :: ws))
    (word : ∀ c, charKind c ≠ kind) :
    (lexFresh line).startsAtMargin = (indentOf line == 0) := by
  obtain ⟨code, tail, rfl, writes, ends⟩ := writes
  generalize whole : (kind, name) :: ws = vs at writes
  cases writes with
  | nil => cases whole
  | @blank c rest _ blank later =>
      have indent : 0 < indentOf (c :: (rest ++ tail)) := by
        rw [indentOf, List.takeWhile_cons_of_pos (isBlank_of_isLineBlank blank)]
        exact byteWidth_cons_pos c _
      rw [List.cons_append, startsAtMargin_blank_cons blank, eq_comm, beq_eq_false_iff_ne]
      omega
  | @word text rest _ identifier stops later =>
      cases text with
      | nil => cases identifier
      | cons c cs =>
          have start : isNameStart c = true := (Bool.and_eq_true_iff.mp identifier).1
          rw [List.append_assoc, startsAtMargin_token_append (later.fits_word identifier stops ends),
            List.cons_append, indentOf,
            List.takeWhile_cons_of_neg (by simp [isBlank_of_isNameStart start])]
          rfl
  | @mark c =>
      cases whole
      exact absurd rfl (word c)

theorem charKind_ne_fromWord (c : Char) : charKind c ≠ .fromWord := by
  unfold charKind
  split <;> exact Token.Kind.noConfusion

/-! ### One line or many -/

theorem ImportStatement.head_of_lparen (statement : ImportStatement ws forms)
    (paren : .lparen ∈ ws.map Prod.fst) :
    ∃ word rest, ws = (.fromWord, word) :: rest := by
  obtain ⟨word, dotted, word', opening, inner, closing, rfl, -⟩ := statement.exists_enclosed paren
  exact ⟨word, _, rfl⟩

/-- The statement on one line. -/
theorem Reader.feed_one_line (writes : WritesLine line ws) (statement : ImportStatement ws forms)
    (paren : .lparen ∈ ws.map Prod.fst) (number : Nat) :
    feed {} number line = ({}, [.imports number [line] forms (indentOf line == 0)]) := by
  have classified : classify? (lexFresh line).tokens = some forms := by
    refine classify?_of_importStatement ?_
    rw [writes.map_word]
    exact statement
  have margin : (lexFresh line).startsAtMargin = (indentOf line == 0) := by
    obtain ⟨word, rest, rfl⟩ := statement.head_of_lparen paren
    exact startsAtMargin_eq writes charKind_ne_fromWord
  have outside : (lexFresh line).startsInString = false := rfl
  simp only [feed, writes.lexFrom_eq, outside, classified, margin]
  rfl

/-- **The statement on many lines**: nothing comes out before the last line, and then it comes
out whole. -/
theorem Reader.feedEach_lines {last : List Char} {middle : List (List Char)}
    (spread : Spread first middle last ws) (statement : ImportStatement ws forms) (number : Nat) :
    feedEach {} number (first :: (middle ++ [last])) =
      ({}, List.replicate (middle.length + 1) [] ++
        [[.imports number (first :: (middle ++ [last])) forms (indentOf first == 0)]]) := by
  obtain ⟨opening, inner, closing, mark, rfl, firstLine, opened, middleLines, lastLine⟩ :=
    spread
  have grouped : ImportStatement (opening ++ ((inner ++ closing) ++ [(.rparen, mark)])) forms := by
    rwa [List.append_assoc]
  obtain ⟨⟨word, dotted, word', paren, seen, rfl⟩, unclosed⟩ := grouped.exists_opening opened
  have margin := startsAtMargin_eq firstLine charKind_ne_fromWord
  have between : .rparen ∉ inner.map Prod.fst := by
    intro member
    simp [member] at unclosed
  have step := feed_opening firstLine grouped opened number
  have held := feedEach_held middleLines between lastLine (by simp) number first [] (number + 1)
  rw [feedEach_cons step, held, List.nil_append,
    Pending.close_ofLines firstLine (middleLines.concat lastLine) statement, margin]
  rfl

/-- **A parenthesized import means the same on one line or many.**  Take the tokens of a
statement with parentheses, and any layout of them over two or more lines that goes on behind
the opening one.  Fed to a fresh reader, its lines give one statement, at the last line and with
all of them.  It has the clauses of the tokens, as every layout on one line has, and stands at
the margin if the first line is not indented.  The reader is fresh again, and goes on with what
follows. -/
theorem Reader.feedEach_spread {tokens : List Token} {forms : List ImportForm}
    (accepted : classify? tokens = some forms) (enclosed : .lparen ∈ tokens.map Token.kind)
    {first last : List Char} {middle : List (List Char)}
    (spread : Spread first middle last (tokens.map Token.word)) (number : Nat) :
    feedEach {} number (first :: (middle ++ [last])) =
        ({}, List.replicate (middle.length + 1) [] ++
          [[.imports number (first :: (middle ++ [last])) forms (indentOf first == 0)]]) ∧
      (∀ line, WritesLine line (tokens.map Token.word) → feed {} number line =
        ({}, [.imports number [line] forms (indentOf line == 0)])) ∧
      ∀ more, readFrom {} number (first :: (middle ++ [last]) ++ more) =
        .imports number (first :: (middle ++ [last])) forms (indentOf first == 0) ::
          readFrom {} (number + (middle.length + 2)) more := by
  have statement := importStatement_of_classify? accepted
  have paren : .lparen ∈ (tokens.map Token.word).map Prod.fst := by
    rw [← map_kind_eq_of_map_word rfl]
    exact enclosed
  have lines := feedEach_lines spread statement number
  refine ⟨lines, fun line writes => feed_one_line writes statement paren number, fun more => ?_⟩
  rw [readFrom_append, lines]
  simp

/-- An apostrophe, parentheses and three quotes in comments change nothing. -/
theorem Reader.feedEach_spread_commented :
    classify? (lexFresh "from a.b import (c as d, e,)".toList).tokens =
        some [.symbolAs "a.b" "c" "d", .symbol "a.b" "e"] ∧
      feedEach {} 7 ["from a.b import(  # it's (".toList, [], "\tc as  # )".toList,
          "d,e , )  # \"\"\"".toList] =
        ({}, [[], [], [], [.imports 7 ["from a.b import(  # it's (".toList, [],
          "\tc as  # )".toList, "d,e , )  # \"\"\"".toList]
          [.symbolAs "a.b" "c" "d", .symbol "a.b" "e"] true]]) := by
  refine (fun accepted => ⟨accepted, ?_⟩) (by decide +kernel)
  have spread : Spread "from a.b import(  # it's (".toList [[], "\tc as  # )".toList]
      "d,e , )  # \"\"\"".toList
      ((lexFresh "from a.b import (c as d, e,)".toList).tokens.map Token.word) :=
    spread_of_isPlainLine (by decide +kernel) (by decide +kernel) (by decide +kernel)
      (by decide +kernel)
  exact (feedEach_spread accepted (by decide +kernel) spread 7).1

end Amalgam
