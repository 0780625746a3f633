import Amalgam.Proofs.RenamedOccurrences
import Amalgam.Proofs.StringLiterals

/-!
# Tokens in the segments of a line

The lexemes of a line, read in any state, are the line (`textOf_lexLine`), whether it is well
formed or not: what starts a string and does not close it is a token, too.  So each token is
found again in the line by the texts of the lexemes before it, and it lies in one segment of
code, since pushing a piece in front of segments never cuts one.

## Main statements

* `Lexeme.next_reads`, `textOf_lexLine` — nothing is lost
* `fits_or_stray_of_lexemes` — what stands between lexemes
* `Lexeme.Shaped`, `lexLine_shaped` — what each lexeme is made of
* `exists_of_mem_tokensFrom`, `pairwise_tokensFrom` — where tokens stand
* `exists_codePlace`, `exists_codePlace_of_mem` — a token lies in one segment
-/

namespace Amalgam

open Renaming

/-! ### Nothing is lost -/

/-- **A token of a string that is not closed**: the letters in front of its quote, or text
from the quote on. -/
inductive Lexeme.Stray : Lexeme → List Char → Prop where
  | letters {text rest : List Char} {q : Quote} (some : text ≠ [])
      (isPrefix : IsStringPrefix text) : Stray (.token .ident text) (q.char :: rest)
  | op {text rest : List Char} (some : text ≠ []) : Stray (.token .op text) rest

/-- A string that is not closed is taken apart into tokens. -/
theorem Opening.stray_reads {o : Opening} (isPrefix : IsStringPrefix o.letters)
    {body rest : List Char} (text : o.rest = body ++ rest) :
    (o.stray body rest).1.text ++ (o.stray body rest).2 = o.letters ++ o.quote.char :: o.rest ∧
      (o.stray body rest).1.Stray (o.stray body rest).2 := by
  unfold Opening.stray
  split
  · exact ⟨by simp [Lexeme.text, Opening.text, text], .op (by simp [Opening.text])⟩
  next empty =>
    rw [not_not] at empty
    rw [text, empty]
    split
    next letters => exact ⟨rfl, .letters letters isPrefix⟩
    next none =>
      rw [not_not] at none
      exact ⟨by rw [none]; rfl, .op (by simp)⟩

/-- **The lexeme that is read fits, or it is a token** of a string that is not closed. -/
theorem Lexeme.next_reads (c : Char) (cs : List Char) :
    (next c cs).1.text ++ (next c cs).2 = c :: cs ∧
      ((next c cs).1.Fits (next c cs).2 ∨ (next c cs).1.Stray (next c cs).2) := by
  cases opens : opening? (c :: cs) with
  | none =>
      obtain ⟨text, fits⟩ := next_fits_of_plain opens
      exact ⟨text, Or.inl fits⟩
  | some o =>
      obtain ⟨shape, isPrefix⟩ := opening?_eq_some opens
      have string : next c cs = o.next := by rw [next, opens]
      rw [string, shape]
      rcases Opening.next_fits_or_stray isPrefix with ⟨text, fits⟩ | ⟨notTriple, notClosed⟩
      · exact ⟨text, Or.inl fits⟩
      · rw [Opening.next_stray notTriple notClosed]
        obtain ⟨text, stray⟩ := Opening.stray_reads isPrefix (stringBody_spec o.quote.char o.rest).2
        exact ⟨text, Or.inr stray⟩

/-- What a lexeme is made of, as far as it shows in segments and tokens. -/
def Lexeme.Shaped : Lexeme → Prop
  | .blank text => ∀ c ∈ text, isLineBlank c = true
  | .token _ text => text ≠ []
  | .formatted opening body closing => ∃ lit : StringLiteral, lit.isFormatted = true ∧
      lit.long = false ∧ lit.opening = opening ∧ lit.body = body ∧ lit.quotes = closing
  | _ => True

theorem Lexeme.Fits.shaped {l : Lexeme} {rest : List Char} (fits : l.Fits rest) : l.Shaped := by
  cases l with
  | blank text =>
      cases fits with
      | blank _ blanks => exact blanks
  | token kind text => exact fits.text_ne_nil
  | formatted opening body closing => exact StringLiteral.exists_of_formatted fits
  | literal text => trivial
  | unclosed quote text => trivial

theorem Lexeme.Stray.shaped {l : Lexeme} {rest : List Char} (stray : l.Stray rest) :
    l.Shaped := by
  cases stray with
  | letters some => exact some
  | op some => exact some

theorem lexemes_reads (cs : List Char) :
    Lexeme.textOf (lexemes cs) = cs ∧ ∀ l ∈ lexemes cs, l.Shaped := by
  fun_induction lexemes cs with
  | case1 => exact ⟨rfl, by simp⟩
  | case2 c cs ih =>
      obtain ⟨text, shaped⟩ := ih
      obtain ⟨first, fits⟩ := Lexeme.next_reads c cs
      refine ⟨?_, fun l member => ?_⟩
      · rw [Lexeme.textOf, List.flatMap_cons, ← Lexeme.textOf, text, first]
      · rcases List.mem_cons.mp member with rfl | later
        · rcases fits with fits | stray
          · exact fits.shaped
          · exact stray.shaped
        · exact shaped l later

/-- **Every lexeme of a text fits in front of the later ones**, or is a token of a string that
is not closed. -/
theorem fits_or_stray_of_lexemes {cs : List Char} {before after : List Lexeme} {l : Lexeme}
    (split : lexemes cs = before ++ l :: after) :
    l.Fits (Lexeme.textOf after) ∨ l.Stray (Lexeme.textOf after) := by
  fun_induction lexemes cs generalizing before with
  | case1 => simp at split
  | case2 c cs ih =>
      cases before with
      | nil =>
          obtain ⟨rfl, rfl⟩ := List.cons.inj split
          rw [(lexemes_reads (Lexeme.next c cs).2).1]
          exact (Lexeme.next_reads c cs).2
      | cons first before => exact ih (List.cons.inj split).2

/-- **The lexemes of a line are the line.** -/
theorem textOf_lexLine (state : Option Quote) (line : List Char) :
    Lexeme.textOf (lexLine state line) = line := by
  cases state with
  | none => exact (lexemes_reads line).1
  | some quote =>
      unfold lexLine
      dsimp only
      split
      next body rest closed =>
        rw [Lexeme.textOf, List.flatMap_cons, ← Lexeme.textOf, (lexemes_reads rest).1,
          (closeTriple_eq_some closed).1]
        rfl
      next => exact List.append_nil line

theorem lexLine_shaped (state : Option Quote) (line : List Char) :
    ∀ l ∈ lexLine state line, l.Shaped := by
  cases state with
  | none => exact (lexemes_reads line).2
  | some quote =>
      unfold lexLine
      dsimp only
      split
      next body rest closed =>
        intro l member
        rcases List.mem_cons.mp member with rfl | later
        · trivial
        · exact (lexemes_reads rest).2 l later
      next =>
        intro l member
        rw [List.mem_singleton.mp member]
        trivial

/-- The segments of lexemes have their text. -/
theorem textOf_segmentsOf (ls : List Lexeme) :
    Segment.textOf (segmentsOf ls) = Lexeme.textOf ls := by
  rw [← Segment.map_fst_marksOf, Segment.marksOf_segmentsOf, Lexeme.textOf_eq_marks]

/-! ### Where tokens stand -/

theorem utf8ByteSize_ofList (text : List Char) :
    (String.ofList text).utf8ByteSize = byteWidth text := by
  induction text with
  | nil => rfl
  | cons c cs ih =>
      rw [← List.singleton_append, String.ofList_append, String.utf8ByteSize_append, ih,
        byteWidth_append]
      simp [byteWidth]

theorem Lexeme.textOf_append (first second : List Lexeme) :
    textOf (first ++ second) = textOf first ++ textOf second := List.flatMap_append

theorem Lexeme.textOf_cons (l : Lexeme) (ls : List Lexeme) :
    textOf (l :: ls) = l.text ++ textOf ls := List.flatMap_cons

theorem tokensFrom_append (start : Nat) (first second : List Lexeme) :
    tokensFrom start (first ++ second) =
      tokensFrom start first ++ tokensFrom (start + byteWidth (Lexeme.textOf first)) second := by
  induction first generalizing start with
  | nil => rfl
  | cons l ls ih =>
      rw [Lexeme.textOf_cons, byteWidth_append, ← Nat.add_assoc]
      cases l with
      | token kind text => exact congrArg _ (ih _)
      | _ => exact ih _

/-- **A token stands behind the texts of the lexemes before it.** -/
theorem exists_of_mem_tokensFrom {t : Token} {start : Nat} {ls : List Lexeme}
    (member : t ∈ tokensFrom start ls) :
    ∃ before text after, ls = before ++ .token t.kind text :: after ∧
      t.start = start + byteWidth (Lexeme.textOf before) ∧ t.text = String.ofList text := by
  induction ls generalizing start with
  | nil => cases member
  | cons l ls ih =>
      have onward : t ∈ tokensFrom (start + byteWidth l.text) ls →
          ∃ before text after, l :: ls = before ++ .token t.kind text :: after ∧
            t.start = start + byteWidth (Lexeme.textOf before) ∧ t.text = String.ofList text := by
        intro later
        obtain ⟨before, text, after, rfl, stands, spelled⟩ := ih later
        refine ⟨l :: before, text, after, rfl, ?_, spelled⟩
        rw [stands, Lexeme.textOf_cons, byteWidth_append, Nat.add_assoc]
      cases l with
      | token kind text =>
          rcases List.mem_cons.mp member with rfl | later
          · exact ⟨[], text, ls, rfl, rfl, rfl⟩
          · exact onward later
      | _ => exact onward member

theorem mem_tokensFrom_append (start : Nat) (before : List Lexeme) (kind : Token.Kind)
    (text : List Char) (after : List Lexeme) :
    ⟨kind, start + byteWidth (Lexeme.textOf before), String.ofList text⟩ ∈
      tokensFrom start (before ++ .token kind text :: after) := by
  rw [tokensFrom_append]
  exact List.mem_append_right _ List.mem_cons_self

/-- **Tokens do not overlap.** -/
theorem pairwise_tokensFrom (start : Nat) (ls : List Lexeme) :
    (tokensFrom start ls).Pairwise fun t u => t.stop ≤ u.start := by
  induction ls generalizing start with
  | nil => exact List.Pairwise.nil
  | cons l ls ih =>
      cases l with
      | token kind text =>
          refine List.pairwise_cons.mpr ⟨fun u member => ?_, ih _⟩
          obtain ⟨before, _, _, _, stands, -⟩ := exists_of_mem_tokensFrom member
          rw [stands, Token.stop, utf8ByteSize_ofList]
          exact Nat.le_add_right _ _
      | _ => exact ih _

/-! ### Places of tokens -/

/-- A place in the code of segments is one in front of which a piece was pushed. -/
theorem exists_codePlace_push (s : Segment) {segs : List Segment} (place : CodePlace segs) :
    ∃ place' : CodePlace (Segment.push s segs),
      place'.passed = s.text ++ place.passed ∧ place'.rest = place.rest := by
  obtain ⟨front, left, rest, rear, rfl⟩ := place
  obtain ⟨kind, text⟩ := s
  by_cases empty : text = []
  · have same : Segment.push ⟨kind, text⟩ (front ++ ⟨.code, left ++ rest⟩ :: rear) =
        front ++ ⟨.code, left ++ rest⟩ :: rear := if_pos empty
    exact ⟨⟨front, left, rest, rear, same⟩, by simp [CodePlace.passed, empty], rfl⟩
  · have aside : ∀ {rest' : List Segment}, Segment.push ⟨kind, text⟩ rest' = ⟨kind, text⟩ :: rest' →
        rest' = front ++ ⟨.code, left ++ rest⟩ :: rear →
        ∃ place' : CodePlace (Segment.push ⟨kind, text⟩ rest'),
          place'.passed = text ++ (Segment.textOf front ++ left) ∧ place'.rest = rest := by
      rintro rest' pushed rfl
      exact ⟨⟨⟨kind, text⟩ :: front, left, rest, rear, pushed⟩,
        by simp [CodePlace.passed, Segment.textOf], rfl⟩
    cases kind with
    | literal => exact aside (by simp [Segment.push, empty]) rfl
    | code =>
        cases front with
        | nil =>
            have joined : Segment.push ⟨.code, text⟩ ([] ++ ⟨.code, left ++ rest⟩ :: rear) =
                [] ++ ⟨.code, text ++ left ++ rest⟩ :: rear := by
              simp [Segment.push, empty]
            exact ⟨⟨[], text ++ left, rest, rear, joined⟩, rfl, rfl⟩
        | cons first front =>
            obtain ⟨kind', text'⟩ := first
            cases kind' with
            | literal => exact aside (by simp [Segment.push, empty]) rfl
            | code =>
                have joined : Segment.push ⟨.code, text⟩
                    (⟨.code, text'⟩ :: front ++ ⟨.code, left ++ rest⟩ :: rear) =
                    ⟨.code, text ++ text'⟩ :: front ++ ⟨.code, left ++ rest⟩ :: rear := by
                  simp [Segment.push, empty]
                exact ⟨⟨⟨.code, text ++ text'⟩ :: front, left, rest, rear, joined⟩,
                  by simp [CodePlace.passed, Segment.textOf], rfl⟩

/-- The same for pieces that are pushed one after the other. -/
theorem exists_codePlace_foldr (pieces : List Segment) {segs : List Segment}
    (place : CodePlace segs) :
    ∃ place' : CodePlace (pieces.foldr Segment.push segs),
      place'.passed = Segment.textOf pieces ++ place.passed ∧ place'.rest = place.rest := by
  induction pieces with
  | nil => exact ⟨place, rfl, rfl⟩
  | cons piece pieces ih =>
      obtain ⟨place', passed, same⟩ := ih
      obtain ⟨place'', passed', same'⟩ := exists_codePlace_push piece place'
      refine ⟨place'', passed'.trans ?_, same'.trans same⟩
      rw [passed, ← List.append_assoc]
      rfl

/-- **A token lies in one segment**, behind the texts of the lexemes before it. -/
theorem exists_codePlace (before : List Lexeme) (kind : Token.Kind) {text : List Char}
    (some : text ≠ []) (after : List Lexeme) :
    ∃ place : CodePlace (segmentsOf (before ++ .token kind text :: after)),
      place.passed = Lexeme.textOf before ∧ text <+: place.rest := by
  induction before with
  | nil =>
      rw [List.nil_append, segmentsOf_cons]
      change ∃ place : CodePlace (Segment.push ⟨.code, text⟩ (segmentsOf after)), _
      cases segmentsOf after with
      | nil =>
          have pushed : Segment.push ⟨.code, text⟩ [] = [] ++ ⟨.code, [] ++ text⟩ :: [] := by
            simp [Segment.push, some]
          exact ⟨⟨[], [], text, [], pushed⟩, rfl, List.prefix_rfl⟩
      | cons first rest =>
          obtain ⟨kind', text'⟩ := first
          cases kind' with
          | literal =>
              have pushed : Segment.push ⟨.code, text⟩ (⟨.literal, text'⟩ :: rest) =
                  [] ++ ⟨.code, [] ++ text⟩ :: ⟨.literal, text'⟩ :: rest := by
                simp [Segment.push, some]
              exact ⟨⟨[], [], text, _, pushed⟩, rfl, List.prefix_rfl⟩
          | code =>
              have pushed : Segment.push ⟨.code, text⟩ (⟨.code, text'⟩ :: rest) =
                  [] ++ ⟨.code, [] ++ (text ++ text')⟩ :: rest := by
                simp [Segment.push, some]
              exact ⟨⟨[], [], text ++ text', rest, pushed⟩, rfl, List.prefix_append _ _⟩
  | cons l before ih =>
      rw [List.cons_append, segmentsOf_cons, Lexeme.textOf_cons]
      obtain ⟨place, passed, inside⟩ := ih
      rw [← passed]
      have pieces : Segment.textOf l.pieces = l.text := by
        rw [← Segment.map_fst_marksOf]
        exact l.map_fst_marks
      obtain ⟨place', passed', same⟩ := exists_codePlace_foldr l.pieces place
      refine ⟨place', ?_, ?_⟩
      · rw [passed', pieces]
      · rw [same]
        exact inside

/-- Each token is found in the code, at its own byte. -/
theorem exists_codePlace_of_mem {ls : List Lexeme} (shaped : ∀ l ∈ ls, l.Shaped) {t : Token}
    (member : t ∈ tokensOf ls) :
    ∃ place : CodePlace (segmentsOf ls), byteWidth place.passed = t.start ∧
      t.text.toList <+: place.rest := by
  obtain ⟨before, text, after, rfl, stands, spelled⟩ := exists_of_mem_tokensFrom member
  have some : text ≠ [] := shaped (.token t.kind text) (by simp)
  obtain ⟨place, passed, inside⟩ := exists_codePlace before t.kind some after
  refine ⟨place, ?_, ?_⟩
  · rw [passed, stands, Nat.zero_add]
  · rw [spelled, String.toList_ofList]
    exact inside

end Amalgam
