import Amalgam.Line
import Amalgam.Text.IdentChar

/-!
# Lexing a line

`Lexeme.next` reads one lexeme from a non-empty text and returns the rest; `lexemes` repeats it, and it
ends because the rest is shorter.  `lexLine` starts either in program text or inside a triple-quoted
string that an earlier line left open.

A string that is not closed on its line and is not triple-quoted is no string: if it has a body, letters,
quote and body are one stray `op` token, and without a body the letters are an identifier and the quote a
token of its own.

## Main definitions

* `closeTriple` — the text up to and including the closing triple quote, and what follows
* `stringBody` — the body of a string on one line, and what follows
* `Opening`, `opening?` — the letters and quote that start a string
* `Lexeme.next`, `lexemes`, `lexLine`
* `lexFrom`, `lexFresh` — a line lexed in a state, and from outside any string
-/

namespace Amalgam

/-! ### Strings -/

/-- Cuts a text after the first triple quote that no backslash escapes.  A backslash escapes the
character after it, whatever that is. -/
def closeTriple (q : Char) : List Char → Option (List Char × List Char)
  | '\\' :: c :: cs => (closeTriple q cs).map fun (body, rest) => ('\\' :: c :: body, rest)
  | c :: cs =>
    if c = '\\' then none
    else if [q, q, q].isPrefixOf (c :: cs) then some ([q, q, q], (c :: cs).drop 3)
    else (closeTriple q cs).map fun (body, rest) => (c :: body, rest)
  | [] => none

/-- The longest run of string items: characters other than the quote, the backslash and the newline,
and backslashes with the character after them. -/
def stringBody (q : Char) : List Char → List Char × List Char
  | '\\' :: c :: cs =>
    if c = '\n' then ([], '\\' :: c :: cs)
    else
      let (body, rest) := stringBody q cs
      ('\\' :: c :: body, rest)
  | c :: cs =>
    if c = q ∨ c = '\\' ∨ c = '\n' then ([], c :: cs)
    else
      let (body, rest) := stringBody q cs
      (c :: body, rest)
  | [] => ([], [])

/-- The letters that may stand before a string's quote. -/
def isStringLetter (c : Char) : Bool :=
  "rRbBuUfF".toList.contains c

/-- The start of a string: letters, quote, and the text after the quote. -/
structure Opening where
  letters : List Char
  quote : Quote
  rest : List Char

/-- Reads at most two letters directly followed by a quote. -/
def opening? (cs : List Char) : Option Opening :=
  let letters := cs.takeWhile isStringLetter
  match cs.dropWhile isStringLetter with
  | c :: rest => if letters.length ≤ 2 then (Quote.ofChar? c).map (⟨letters, ·, rest⟩) else none
  | [] => none

namespace Opening

/-- The letters and the quote. -/
def text (o : Opening) : List Char :=
  o.letters ++ [o.quote.char]

/-- Do the letters ask for a formatted string? -/
def isFormatted (o : Opening) : Bool :=
  o.letters.any fun c => c == 'f' || c == 'F'

/-- The lexeme where a string starts but is not closed: `body` is what was read after the quote. -/
def stray (o : Opening) (body rest : List Char) : Lexeme × List Char :=
  if body ≠ [] then (.token .op (o.text ++ body), rest)
  else if o.letters ≠ [] then (.token .ident o.letters, o.quote.char :: rest)
  else (.token .op [o.quote.char], rest)

/-- The lexeme where a triple quote starts a string, and the rest; `rest` follows the three quotes. -/
def nextTriple (o : Opening) (rest : List Char) : Lexeme × List Char :=
  match closeTriple o.quote.char rest with
  | some (body, after) => (.literal (o.text ++ [o.quote.char, o.quote.char] ++ body), after)
  | none => (.unclosed o.quote (o.text ++ [o.quote.char, o.quote.char] ++ rest), [])

/-- The lexeme where a single quote starts a string with the given body, and the rest; `after` follows
the body. -/
def nextSingle (o : Opening) (body after : List Char) : Lexeme × List Char :=
  match after with
  | [] => o.stray body []
  | c :: rest =>
    if c ≠ o.quote.char then o.stray body (c :: rest)
    else if o.isFormatted then (.formatted o.text body [c], rest)
    else (.literal (o.text ++ body ++ [c]), rest)

/-- The lexeme at a string's start, and the rest. -/
def next (o : Opening) : Lexeme × List Char :=
  if [o.quote.char, o.quote.char].isPrefixOf o.rest then o.nextTriple (o.rest.drop 2)
  else o.nextSingle (stringBody o.quote.char o.rest).1 (stringBody o.quote.char o.rest).2

end Opening

/-! ### Words, numbers, operators -/

/-- The blanks between tokens. -/
def isLineBlank (c : Char) : Bool :=
  c == ' ' || c == '\t' || c == '\r' || c == '\x0c'

/-- The operators of more than one character, longer ones before their beginnings. -/
def longOperators : List (List Char) :=
  ["**=", "//=", ">>=", "<<=", "==", "!=", "<=", ">=", ":=", "->", "**", "//", ">>", "<<", "-=", "+=",
   "*=", "/=", "%=", "&=", "|=", "^=", "@="].map String.toList

/-- The kind of a token of one character that is no word and no number. -/
def charKind (c : Char) : Token.Kind :=
  match c with
  | '.' => .dot
  | ',' => .comma
  | '*' => .star
  | '(' => .lparen
  | ')' => .rparen
  | ':' => .colon
  | '=' => .assign
  | ';' => .semi
  | _ => .op

/-- The text of a number whose first digit was read: digits, letters and underscores, and once a dot
with more of them. -/
def numberRest (cs : List Char) : List Char × List Char :=
  let whole := cs.takeWhile isNameChar
  match cs.dropWhile isNameChar with
  | '.' :: rest => (whole ++ '.' :: rest.takeWhile isNameChar, rest.dropWhile isNameChar)
  | rest => (whole, rest)

namespace Lexeme

/-- The lexeme at the start of the text `c :: cs` where no string starts, and the rest. -/
def nextPlain (c : Char) (cs : List Char) : Lexeme × List Char :=
  if isLineBlank c then (.blank (c :: cs.takeWhile isLineBlank), cs.dropWhile isLineBlank)
  else if c = '#' then (.literal (c :: cs.takeWhile (· != '\n')), cs.dropWhile (· != '\n'))
  else if isNameStart c then
    let word := c :: cs.takeWhile isNameChar
    (.token (.ofWord word) word, cs.dropWhile isNameChar)
  else if c.isDigit then
    let (number, rest) := numberRest cs
    (.token .number (c :: number), rest)
  else
    match longOperators.find? (·.isPrefixOf (c :: cs)) with
    | some operator => (.token .op operator, (c :: cs).drop operator.length)
    | none => (.token (charKind c) [c], cs)

/-- The lexeme at the start of the text `c :: cs`, and the rest. -/
def next (c : Char) (cs : List Char) : Lexeme × List Char :=
  match opening? (c :: cs) with
  | some o => o.next
  | none => nextPlain c cs

end Lexeme

/-! ### Every lexeme consumes something -/

theorem length_dropWhile_le (p : Char → Bool) (cs : List Char) :
    (cs.dropWhile p).length ≤ cs.length :=
  (List.dropWhile_suffix p).length_le

theorem closeTriple_length {q : Char} {cs body rest : List Char}
    (h : closeTriple q cs = some (body, rest)) : rest.length < cs.length := by
  fun_induction closeTriple q cs generalizing body rest with
  | case1 c cs ih =>
    obtain ⟨⟨b, r⟩, hr, he⟩ := Option.map_eq_some_iff.1 h
    have := ih hr
    simp only [Prod.mk.injEq] at he
    simp only [List.length_cons, ← he.2]
    omega
  | case2 => simp at h
  | case3 =>
    simp only [Option.some.injEq, Prod.mk.injEq] at h
    rw [← h.2, List.length_drop, List.length_cons]
    omega
  | case4 c cs _ _ _ ih =>
    obtain ⟨⟨b, r⟩, hr, he⟩ := Option.map_eq_some_iff.1 h
    have := ih hr
    simp only [Prod.mk.injEq] at he
    simp only [List.length_cons, ← he.2]
    omega
  | case5 => simp at h

theorem stringBody_length (q : Char) (cs : List Char) :
    (stringBody q cs).2.length + (stringBody q cs).1.length = cs.length := by
  fun_induction stringBody q cs <;> simp_all <;> omega

theorem opening?_length {cs : List Char} {o : Opening} (h : opening? cs = some o) :
    cs.length = o.letters.length + 1 + o.rest.length := by
  have hsplit : (cs.takeWhile isStringLetter).length + (cs.dropWhile isStringLetter).length
      = cs.length := by
    rw [← List.length_append, List.takeWhile_append_dropWhile]
  simp only [opening?] at h
  split at h
  · next c rest hrest =>
    split at h
    · obtain ⟨quote, _, rfl⟩ := Option.map_eq_some_iff.1 h
      simp only [hrest, List.length_cons] at hsplit
      simp only
      omega
    · simp at h
  · simp at h

theorem Opening.stray_length (o : Opening) (body rest : List Char) :
    (o.stray body rest).2.length ≤ o.letters.length + rest.length := by
  unfold Opening.stray
  split
  · simp
  · split
    · next hl =>
      have := List.length_pos_iff.2 hl
      simp only [List.length_cons]
      omega
    · simp

theorem Opening.nextTriple_length (o : Opening) (rest : List Char) :
    (o.nextTriple rest).2.length ≤ rest.length := by
  unfold Opening.nextTriple
  split
  · next h => exact Nat.le_of_lt (closeTriple_length h)
  · simp

theorem Opening.nextSingle_length (o : Opening) (body after : List Char) :
    (o.nextSingle body after).2.length ≤ o.letters.length + after.length := by
  unfold Opening.nextSingle
  split
  · exact o.stray_length body []
  · split
    · exact o.stray_length body _
    · split <;> simp only [List.length_cons] <;> omega

theorem Opening.next_length (o : Opening) :
    o.next.2.length ≤ o.letters.length + o.rest.length := by
  unfold Opening.next
  split
  · have := o.nextTriple_length (o.rest.drop 2)
    simp only [List.length_drop] at this
    omega
  · have := o.nextSingle_length (stringBody o.quote.char o.rest).1 (stringBody o.quote.char o.rest).2
    have := stringBody_length o.quote.char o.rest
    omega

theorem numberRest_length (cs : List Char) : (numberRest cs).2.length ≤ cs.length := by
  simp only [numberRest]
  have h := length_dropWhile_le isNameChar cs
  split
  · next rest hrest =>
    have := length_dropWhile_le isNameChar rest
    simp only [hrest, List.length_cons] at h
    simp only
    omega
  · exact h

/-- What is left after a lexeme is shorter. -/
theorem Lexeme.next_length (c : Char) (cs : List Char) :
    (Lexeme.next c cs).2.length ≤ cs.length := by
  unfold Lexeme.next
  split
  · next o h =>
    have := opening?_length h
    have := o.next_length
    simp only [List.length_cons] at *
    omega
  · unfold Lexeme.nextPlain
    split
    · exact length_dropWhile_le _ _
    · split
      · exact length_dropWhile_le _ _
      · split
        · exact length_dropWhile_le _ _
        · split
          · exact numberRest_length cs
          · split
            · next operator h =>
              have hmem := List.mem_of_find?_eq_some h
              have hlen : ∀ op ∈ longOperators, 0 < op.length := by decide
              have := hlen _ hmem
              simp only [List.length_drop, List.length_cons]
              omega
            · simp

/-! ### Lines -/

/-- The lexemes of a text outside any string. -/
def lexemes : List Char → List Lexeme
  | [] => []
  | c :: cs => (Lexeme.next c cs).1 :: lexemes (Lexeme.next c cs).2
termination_by cs => cs.length
decreasing_by
  have := Lexeme.next_length c cs
  simp only [List.length_cons]
  omega

/-- The lexemes of a line that starts inside the string `state`, or outside any string. -/
def lexLine (state : Option Quote) (line : List Char) : List Lexeme :=
  match state with
  | none => lexemes line
  | some quote =>
    match closeTriple quote.char line with
    | some (body, rest) => .literal body :: lexemes rest
    | none => [.unclosed quote line]

/-- A line lexed in a state, and the state it leaves. -/
def lexFrom (state : Option Quote) (line : List Char) : LexedLine × Option Quote :=
  let ls := lexLine state line
  (⟨tokensOf ls, segmentsOf ls, state.isSome⟩, openString ls)

/-- A line lexed from outside any string. -/
def lexFresh (line : List Char) : LexedLine :=
  (lexFrom none line).1

/-- The lines of a file, lexed one after the other from state `state`. -/
def lexAll (state : Option Quote) : List (List Char) → List LexedLine
  | [] => []
  | line :: lines => (lexFrom state line).1 :: lexAll (lexFrom state line).2 lines

end Amalgam
