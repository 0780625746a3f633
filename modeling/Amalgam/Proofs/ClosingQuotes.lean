import Amalgam.Proofs.RenamedLines
import Amalgam.Proofs.SourceLines

/-!
# Where a triple-quoted string is closed

A triple quote closes a string unless it is escaped, that is, unless an odd number of
backslashes stands directly in front of it.  The first one that is not escaped is found by
skipping each backslash with the character behind it.  It is found at the same byte

* in the characters of the text,
* in its bytes, of which a backslash skips one, though that be the first of several,
* line by line, though a backslash at the end of a line has nothing to skip there and skips
  the newline in the whole text,
* by the lexer, which is told of the lines one after the other.

## Main statements

* `isFirstCut_closeTriple` — the cut is behind the first triple quote that is not escaped
* `findClosing_encodeUtf8` — scanning bytes
* `closeTriple_append_newline` — scanning a line does not touch the next
* `lexedString_closeTriple` — the lexer's lines
* `closeTriple_linewise` — all four agree
-/

namespace Amalgam

/-! ### Escaped quotes -/

/-- How many backslashes stand at the end of a text. -/
def slashRun (text : List Char) : Nat :=
  (text.reverse.takeWhile (· == '\\')).length

/-- **A triple quote behind `before` closes the string**: an even number of backslashes stands
directly in front of it. -/
def Closes (q : Char) (text before : List Char) : Prop :=
  before ++ [q, q, q] <+: text ∧ slashRun before % 2 = 0

/-- **A cut is behind the first triple quote that closes the string**, or there is none of
either. -/
def IsFirstCut (q : Char) (text : List Char) : Option (List Char × List Char) → Prop
  | none => ∀ before, ¬ Closes q text before
  | some (body, rest) => text = body ++ rest ∧ ∃ before, body = before ++ [q, q, q] ∧
      Closes q text before ∧ ∀ other, Closes q text other → before.length ≤ other.length

theorem slashRun_le_length (text : List Char) : slashRun text ≤ text.length := by
  calc slashRun text ≤ text.reverse.length := (List.takeWhile_prefix _).length_le
    _ = text.length := List.length_reverse

theorem slashRun_cons (c : Char) (text : List Char) :
    slashRun (c :: text) =
      if slashRun text = text.length ∧ c = '\\' then text.length + 1 else slashRun text := by
  unfold slashRun
  rw [List.reverse_cons, List.takeWhile_append, List.length_reverse]
  by_cases all : (text.reverse.takeWhile (· == '\\')).length = text.length
  · by_cases slash : c = '\\' <;> simp [all, slash]
  · simp [all]

/-- A backslash and the character behind it do not change what is escaped later, even if that is
a backslash too. -/
theorem slashRun_escape (c : Char) (text : List Char) :
    slashRun ('\\' :: c :: text) % 2 = slashRun text % 2 := by
  have bound := slashRun_le_length text
  simp only [slashRun_cons, List.length_cons, and_true]
  split_ifs <;> omega

section Cut

variable {q : Char}

theorem closes_escape (plain : q ≠ '\\') {c : Char} {cs before : List Char} :
    Closes q ('\\' :: c :: cs) before ↔ ∃ later, before = '\\' :: c :: later ∧ Closes q cs later := by
  constructor
  · rintro ⟨quotes, even⟩
    match before with
    | [] => exact absurd (List.cons_prefix_cons.mp quotes).1 plain
    | [x] =>
        obtain ⟨rfl, -⟩ := List.cons_prefix_cons.mp quotes
        exact absurd even (by decide)
    | x :: y :: later =>
        obtain ⟨rfl, second⟩ := List.cons_prefix_cons.mp quotes
        obtain ⟨rfl, behind⟩ := List.cons_prefix_cons.mp second
        exact ⟨later, rfl, behind, (slashRun_escape y later).symm.trans even⟩
  · rintro ⟨later, rfl, quotes, even⟩
    refine ⟨?_, (slashRun_escape c later).trans even⟩
    exact List.cons_prefix_cons.mpr ⟨rfl, List.cons_prefix_cons.mpr ⟨rfl, quotes⟩⟩

theorem closes_cons {c : Char} (plain : c ≠ '\\') {cs before : List Char} :
    Closes q (c :: cs) before ↔
      before = [] ∧ [q, q, q] <+: c :: cs ∨ ∃ later, before = c :: later ∧ Closes q cs later := by
  have run (later : List Char) : slashRun (c :: later) = slashRun later := by
    rw [slashRun_cons, if_neg fun slash => plain slash.2]
  constructor
  · rintro ⟨quotes, even⟩
    match before with
    | [] => exact Or.inl ⟨rfl, quotes⟩
    | x :: later =>
        obtain ⟨rfl, behind⟩ := List.cons_prefix_cons.mp quotes
        exact Or.inr ⟨later, rfl, behind, run later ▸ even⟩
  · rintro (⟨rfl, quotes⟩ | ⟨later, rfl, quotes, even⟩)
    · exact ⟨quotes, rfl⟩
    · exact ⟨List.cons_prefix_cons.mpr ⟨rfl, quotes⟩, (run later).symm ▸ even⟩

/-- Skipped characters go in front of the cut. -/
theorem IsFirstCut.skip {text : List Char} {cut : Option (List Char × List Char)}
    (first : IsFirstCut q text cut) (skipped : List Char)
    (closes : ∀ before, Closes q (skipped ++ text) before ↔
      ∃ later, before = skipped ++ later ∧ Closes q text later) :
    IsFirstCut q (skipped ++ text) (cut.map fun (body, rest) => (skipped ++ body, rest)) := by
  cases cut with
  | none =>
      intro before found
      obtain ⟨later, -, found⟩ := (closes before).mp found
      exact first later found
  | some cut =>
      obtain ⟨whole, before, body, found, least⟩ := first
      refine ⟨by rw [whole, List.append_assoc], skipped ++ before, ?_, ?_, fun other found => ?_⟩
      · rw [body, List.append_assoc]
      · exact (closes _).mpr ⟨before, rfl, found⟩
      · obtain ⟨later, rfl, behind⟩ := (closes other).mp found
        have := least later behind
        simp only [List.length_append]
        omega

/-- **The cut is behind the first triple quote that closes the string.** -/
theorem isFirstCut_closeTriple (plain : q ≠ '\\') (text : List Char) :
    IsFirstCut q text (closeTriple q text) := by
  fun_induction closeTriple q text with
  | case1 c cs ih => exact ih.skip ['\\', c] fun before => closes_escape plain
  | case2 cs notEscape =>
      -- a backslash at the very end
      cases cs with
      | nil =>
          rintro before ⟨quotes, -⟩
          have := quotes.length_le
          simp only [List.length_append, List.length_cons, List.length_nil] at this
          omega
      | cons d ds => exact (notEscape d ds rfl rfl).elim
  | case3 c cs notEscape slash quotes =>
      obtain ⟨rest, whole⟩ := List.isPrefixOf_iff_prefix.mp quotes
      refine ⟨?_, [], rfl, (closes_cons slash).mpr (Or.inl ⟨rfl, rest, whole⟩), fun _ _ =>
        Nat.zero_le _⟩
      rw [← whole]
      rfl
  | case4 c cs notEscape slash quotes ih =>
      refine ih.skip [c] fun before => (closes_cons slash).trans (or_iff_right ?_)
      exact fun start => quotes (List.isPrefixOf_iff_prefix.mpr start.2)
  | case5 =>
      rintro before ⟨quotes, -⟩
      simpa using quotes.length_le

end Cut

/-! ### Bytes -/

/-- A character that is one byte. -/
def asciiByte (c : Char) : UInt8 :=
  UInt8.ofNat c.toNat

/-- The number of bytes up to and including the first triple quote in the bytes of a text; a
backslash skips one byte. -/
def findClosing (q : UInt8) : Bytes → Option Nat
  | [] => none
  | b :: bs =>
    if b = asciiByte '\\' then (findClosing q (bs.drop 1)).map (· + 2)
    else if [q, q, q].isPrefixOf (b :: bs) then some 3
    else (findClosing q bs).map (· + 1)
termination_by bytes => bytes.length

theorem findClosing_nil (q : UInt8) : findClosing q [] = none := by
  rw [findClosing]

theorem encodeUtf8_cons (c : Char) (cs : List Char) :
    encodeUtf8 (c :: cs) = String.utf8EncodeChar c ++ encodeUtf8 cs := rfl

theorem utf8EncodeChar_ascii {c : Char} (ascii : c.toNat < 0x80) :
    String.utf8EncodeChar c = [asciiByte c] := by
  rw [String.utf8EncodeChar]
  exact if_pos (Nat.le_of_lt_succ ascii)

theorem encodeUtf8_cons_ascii {c : Char} (ascii : c.toNat < 0x80) (cs : List Char) :
    encodeUtf8 (c :: cs) = asciiByte c :: encodeUtf8 cs := by
  rw [encodeUtf8_cons, utf8EncodeChar_ascii ascii, List.singleton_append]

theorem utf8EncodeChar_high {c : Char} (high : ¬ c.toNat < 0x80) :
    ∀ b ∈ String.utf8EncodeChar c, 0x80 ≤ b.toNat := by
  have above : ¬ c.val.toNat ≤ 127 := fun small => high (Nat.lt_succ_of_le small)
  intro b member
  simp only [String.utf8EncodeChar, if_neg above] at member
  split_ifs at member <;>
    simp only [List.mem_cons, List.not_mem_nil, or_false] at member <;>
    rcases member with rfl | rfl | rfl | rfl <;>
    rw [UInt8.toNat_ofNat'] <;> omega

/-- All bytes of a character but the first are above the one-byte characters. -/
theorem tail_utf8EncodeChar_high (c : Char) :
    ∀ b ∈ (String.utf8EncodeChar c).drop 1, 0x80 ≤ b.toNat := by
  intro b member
  by_cases ascii : c.toNat < 0x80
  · rw [utf8EncodeChar_ascii ascii] at member
    cases member
  · exact utf8EncodeChar_high ascii b (List.mem_of_mem_drop member)

theorem toNat_asciiByte_lt {c : Char} (ascii : c.toNat < 0x80) : (asciiByte c).toNat < 0x80 := by
  rw [asciiByte, UInt8.toNat_ofNat']
  omega

theorem asciiByte_inj {c d : Char} (asciiC : c.toNat < 0x80) (asciiD : d.toNat < 0x80) :
    asciiByte c = asciiByte d ↔ c = d := by
  refine ⟨fun same => Char.toNat_inj.mp ?_, congrArg asciiByte⟩
  have := congrArg UInt8.toNat same
  rw [asciiByte, asciiByte, UInt8.toNat_ofNat', UInt8.toNat_ofNat'] at this
  omega

/-- A one-byte character starts the bytes of a text just if it starts the text. -/
theorem cons_prefix_encodeUtf8 {c : Char} (ascii : c.toNat < 0x80) {bytes : Bytes}
    {text : List Char} :
    asciiByte c :: bytes <+: encodeUtf8 text ↔
      ∃ rest, text = c :: rest ∧ bytes <+: encodeUtf8 rest := by
  constructor
  · intro start
    cases text with
    | nil => exact absurd start.length_le (Nat.not_succ_le_zero _)
    | cons d rest =>
        rw [encodeUtf8_cons] at start
        by_cases asciiD : d.toNat < 0x80
        · rw [utf8EncodeChar_ascii asciiD] at start
          obtain ⟨same, start⟩ := List.cons_prefix_cons.mp start
          rw [(asciiByte_inj ascii asciiD).mp same]
          exact ⟨rest, rfl, start⟩
        · cases bytesOf : String.utf8EncodeChar d with
          | nil => exact absurd bytesOf String.utf8EncodeChar_ne_nil
          | cons b bs =>
              rw [bytesOf] at start
              obtain ⟨rfl, -⟩ := List.cons_prefix_cons.mp start
              have above := utf8EncodeChar_high asciiD (asciiByte c) (bytesOf ▸ List.mem_cons_self)
              exact absurd (toNat_asciiByte_lt ascii) (Nat.not_lt_of_le above)
  · rintro ⟨rest, rfl, start⟩
    rw [encodeUtf8_cons_ascii ascii]
    exact List.cons_prefix_cons.mpr ⟨rfl, start⟩

theorem map_asciiByte_prefix_iff {front : List Char} (ascii : ∀ c ∈ front, c.toNat < 0x80)
    (text : List Char) : front.map asciiByte <+: encodeUtf8 text ↔ front <+: text := by
  induction front generalizing text with
  | nil => exact iff_of_true List.nil_prefix List.nil_prefix
  | cons c front ih =>
      obtain ⟨first, later⟩ := List.forall_mem_cons.mp ascii
      rw [List.map_cons, cons_prefix_encodeUtf8 first, List.cons_prefix_iff]
      exact exists_congr fun rest => and_congr_right fun _ => ih later rest

/-- Bytes above the one-byte characters are passed over. -/
theorem findClosing_append_high {q : UInt8} (ascii : q.toNat < 0x80) {front : Bytes}
    (high : ∀ b ∈ front, 0x80 ≤ b.toNat) (bytes : Bytes) :
    findClosing q (front ++ bytes) = (findClosing q bytes).map (· + front.length) := by
  induction front with
  | nil => exact Option.map_id'.symm
  | cons b front ih =>
      obtain ⟨above, high⟩ := List.forall_mem_cons.mp high
      have slash : b ≠ asciiByte '\\' := by
        rintro rfl
        exact absurd above (by decide)
      have quotes : ¬ [q, q, q].isPrefixOf (b :: (front ++ bytes)) = true := by
        intro start
        obtain ⟨rfl, -⟩ := List.cons_prefix_cons.mp (List.isPrefixOf_iff_prefix.mp start)
        exact absurd ascii (Nat.not_lt_of_le above)
      rw [List.cons_append, findClosing, if_neg slash, if_neg quotes, ih high, Option.map_map]
      rfl

theorem utf8Size_ascii {c : Char} (ascii : c.toNat < 0x80) : c.utf8Size = 1 := by
  rw [← String.length_utf8EncodeChar, utf8EncodeChar_ascii ascii]
  rfl

theorem findClosing_cons_ascii {q c : Char} (asciiQ : q.toNat < 0x80) (ascii : c.toNat < 0x80)
    (plain : c ≠ '\\') (cs : List Char) :
    findClosing (asciiByte q) (encodeUtf8 (c :: cs)) =
      if [q, q, q].isPrefixOf (c :: cs) then some 3
      else (findClosing (asciiByte q) (encodeUtf8 cs)).map (· + 1) := by
  have all : ∀ c ∈ [q, q, q], c.toNat < 0x80 := by simpa using asciiQ
  have quotes : [asciiByte q, asciiByte q, asciiByte q].isPrefixOf (encodeUtf8 (c :: cs)) =
      [q, q, q].isPrefixOf (c :: cs) := by
    rw [Bool.eq_iff_iff, List.isPrefixOf_iff_prefix, List.isPrefixOf_iff_prefix]
    exact map_asciiByte_prefix_iff all (c :: cs)
  rw [← quotes, encodeUtf8_cons_ascii ascii, findClosing,
    if_neg fun same => plain ((asciiByte_inj ascii (by decide)).mp same)]

/-- **Scanning bytes finds the end of the cut.** -/
theorem findClosing_encodeUtf8 {q : Char} (ascii : q.toNat < 0x80) (text : List Char) :
    findClosing (asciiByte q) (encodeUtf8 text) =
      (closeTriple q text).map fun cut => byteWidth cut.1 := by
  have small := toNat_asciiByte_lt ascii
  fun_induction closeTriple q text with
  | case1 c cs ih =>
      -- the backslash skips the first byte of `c`, and the others are passed over
      have wide : 1 ≤ (String.utf8EncodeChar c).length := by
        rw [String.length_utf8EncodeChar]
        exact c.utf8Size_pos
      rw [encodeUtf8_cons_ascii (by decide), encodeUtf8_cons, findClosing, if_pos rfl,
        List.drop_append_of_le_length wide,
        findClosing_append_high small (tail_utf8EncodeChar_high c), ih]
      cases closeTriple q cs with
      | none => rfl
      | some cut =>
          refine congrArg some ?_
          change byteWidth cut.1 + _ + 2 = 1 + (c.utf8Size + byteWidth cut.1)
          rw [List.length_drop]
          rw [String.length_utf8EncodeChar] at wide ⊢
          omega
  | case2 cs notEscape =>
      cases cs with
      | nil =>
          rw [encodeUtf8_cons_ascii (by decide), findClosing, if_pos rfl]
          exact congrArg (Option.map (· + 2)) (findClosing_nil _)
      | cons d ds => exact (notEscape d ds rfl rfl).elim
  | case3 c cs notEscape slash quotes =>
      obtain ⟨rfl, -⟩ := List.cons_prefix_cons.mp (List.isPrefixOf_iff_prefix.mp quotes)
      rw [findClosing_cons_ascii ascii ascii slash, if_pos quotes]
      simp [byteWidth, utf8Size_ascii ascii]
  | case4 c cs notEscape slash quotes ih =>
      have width : ((closeTriple q cs).map fun cut => byteWidth cut.1).map (· + c.utf8Size) =
          ((closeTriple q cs).map fun (body, rest) => (c :: body, rest)).map
            fun cut => byteWidth cut.1 := by
        cases closeTriple q cs with
        | none => rfl
        | some cut => exact congrArg some (Nat.add_comm _ _)
      rw [← width, ← ih]
      by_cases asciiC : c.toNat < 0x80
      · rw [findClosing_cons_ascii ascii asciiC slash, if_neg quotes, utf8Size_ascii asciiC]
      · rw [encodeUtf8_cons, findClosing_append_high small (utf8EncodeChar_high asciiC),
          String.length_utf8EncodeChar]
  | case5 => exact findClosing_nil _

/-! ### Lines -/

/-- The number of bytes up to and including the first triple quote in lines, each of which is
scanned from its first byte; a newline stands between them. -/
def findInLines (q : UInt8) : List (List Char) → Option Nat
  | [] => none
  | line :: lines =>
    (findClosing q (encodeUtf8 line)).or ((findInLines q lines).map (byteWidth line + 1 + ·))

/-- A line as it is lexed from inside a string to inside it: no tokens, and nothing but
literal. -/
def stringLine (line : List Char) : LexedLine where
  tokens := []
  segments := if line = [] then [] else [⟨.literal, line⟩]
  startsInString := true

/-- **Lexing lines from inside a string leaves it at a cut** of the whole text: the lines before
are in it, and a line is cut where the text is, with program text behind.  Without a cut all
lines are in the string. -/
def LexedString (quote : Quote) (lines : List (List Char)) :
    Option (List Char × List Char) → Prop
  | none => lexAll (some quote) lines = lines.map stringLine
  | some (body, rest) => ∃ before inside outside after,
      lines = before ++ (inside ++ outside) :: after ∧
      body = joinWith '\n' (before ++ [inside]) ∧ rest = joinWith '\n' (outside :: after) ∧
      lexLine (some quote) (inside ++ outside) = .literal inside :: lexemes outside ∧
      lexAll (some quote) lines =
        before.map stringLine ++ (lexFrom (some quote) (inside ++ outside)).1 ::
          lexAll (openString (lexemes outside)) after

section Lines

variable {q : Char}

/-- A text without a newline that starts lines starts the first. -/
theorem prefix_of_prefix_append_newline {front line text : List Char} (single : '\n' ∉ front)
    (start : front <+: line ++ '\n' :: text) : front <+: line := by
  have first : line ++ ['\n'] <+: line ++ '\n' :: text := ⟨text, by simp⟩
  have notLonger : ¬ line ++ ['\n'] <+: front := fun longer =>
    single (longer.mem (List.mem_append_right _ List.mem_cons_self))
  rcases List.prefix_or_prefix_of_prefix start first with shorter | longer
  · rcases List.prefix_concat_iff.mp shorter with rfl | shorter
    · exact absurd List.prefix_rfl notLonger
    · exact shorter
  · exact absurd longer notLonger

/-- **A line without a closing quote is passed over with its newline.**  If it ends in a
backslash that is not escaped, the backslash escapes the newline. -/
theorem closeTriple_append_newline (newline : q ≠ '\n') {line : List Char}
    (opened : closeTriple q line = none) (text : List Char) :
    closeTriple q (line ++ '\n' :: text) =
      (closeTriple q text).map fun cut => (line ++ '\n' :: cut.1, cut.2) := by
  fun_induction closeTriple q line with
  | case1 c cs ih =>
      rw [Option.map_eq_none_iff] at opened
      simp [closeTriple, ih opened, Function.comp_def]
  | case2 cs notEscape =>
      cases cs with
      | nil => rfl
      | cons d ds => exact (notEscape d ds rfl rfl).elim
  | case3 => cases opened
  | case4 c cs notEscape slash quotes ih =>
      rw [Option.map_eq_none_iff] at opened
      have goesOn : ¬ [q, q, q].isPrefixOf (c :: (cs ++ '\n' :: text)) = true := by
        intro start
        refine quotes (List.isPrefixOf_iff_prefix.mpr ?_)
        exact prefix_of_prefix_append_newline (by simpa using newline.symm)
          (List.isPrefixOf_iff_prefix.mp start)
      simp [closeTriple, slash, goesOn, ih opened, Function.comp_def]
  | case5 => simp [closeTriple, newline]

example : closeTriple '"' "a\\\n\"\"\"b".toList = some ("a\\\n\"\"\"".toList, ['b']) := by
  decide

/-- A closing quote in a line cuts the whole text. -/
theorem closeTriple_append_of_some {line inside outside : List Char}
    (closed : closeTriple q line = some (inside, outside)) (text : List Char) :
    closeTriple q (line ++ text) = some (inside, outside ++ text) := by
  obtain ⟨whole, -, any⟩ := closeTriple_eq_some closed
  rw [whole, List.append_assoc]
  exact any _

/-- **No closing quote in the text, no closing quote in its lines**, and the other way round. -/
theorem closeTriple_joinWith_eq_none_iff (newline : q ≠ '\n') {lines : List (List Char)} :
    closeTriple q (joinWith '\n' lines) = none ↔ ∀ line ∈ lines, closeTriple q line = none := by
  fun_induction joinWith '\n' lines with
  | case1 => simp [closeTriple]
  | case2 line => simp
  | case3 line lines more ih =>
      rw [List.forall_mem_cons, ← ih]
      cases closed : closeTriple q line with
      | none => simp [closeTriple_append_newline newline closed]
      | some cut => simp [closeTriple_append_of_some closed]

/-- Scanning line by line finds the same byte. -/
theorem findInLines_eq (ascii : q.toNat < 0x80) (newline : q ≠ '\n') (lines : List (List Char)) :
    findInLines (asciiByte q) lines =
      (closeTriple q (joinWith '\n' lines)).map fun cut => byteWidth cut.1 := by
  fun_induction joinWith '\n' lines with
  | case1 => simp [findInLines, closeTriple]
  | case2 line =>
      rw [findInLines, findClosing_encodeUtf8 ascii, findInLines, Option.map_none, Option.or_none]
  | case3 line lines more ih =>
      rw [findInLines, findClosing_encodeUtf8 ascii, ih]
      cases closed : closeTriple q line with
      | none =>
          rw [closeTriple_append_newline newline closed, Option.map_map, Option.map_map]
          refine congrArg (Option.map · _) (funext fun cut => ?_)
          rw [Function.comp_apply, Function.comp_apply, byteWidth_append, Nat.add_assoc]
          rfl
      | some cut =>
          rw [closeTriple_append_of_some closed]
          rfl

end Lines

/-! ### The lexer -/

section Lexer

variable {quote : Quote}

/-- A line without a closing quote stays in the string. -/
theorem lexAll_cons_of_none {line : List Char} (opened : closeTriple quote.char line = none)
    (lines : List (List Char)) :
    lexAll (some quote) (line :: lines) = stringLine line :: lexAll (some quote) lines := by
  have lexed : lexFrom (some quote) line = (stringLine line, some quote) := by
    rw [lexFrom, lexLine, opened]
    by_cases empty : line = [] <;>
      simp [stringLine, empty, tokensOf, tokensFrom, segmentsOf, Lexeme.pieces, Segment.push,
        openString]
  rw [lexAll, lexed]

/-- A line with a closing quote leaves the string there. -/
theorem lexedString_of_some {line inside outside : List Char}
    (closed : closeTriple quote.char line = some (inside, outside)) (after : List (List Char)) :
    LexedString quote (line :: after) (some (inside, joinWith '\n' (outside :: after))) := by
  have lexed : lexLine (some quote) line = .literal inside :: lexemes outside := by
    rw [lexLine, closed]
  have left : (lexFrom (some quote) line).2 = openString (lexemes outside) := by
    rw [lexFrom, lexed, openString, openString]
    cases lexemes outside with
    | nil => rfl
    | cons first later => rw [List.getLast?_cons_cons]
  have all : lexAll (some quote) (line :: after) =
      (lexFrom (some quote) line).1 :: lexAll (openString (lexemes outside)) after := by
    rw [lexAll, left]
  obtain ⟨rfl, -⟩ := closeTriple_eq_some closed
  exact ⟨[], inside, outside, after, rfl, rfl, rfl, lexed, all⟩

/-- A line in front that stays in the string belongs to the cut. -/
theorem LexedString.cons {line : List Char} (opened : closeTriple quote.char line = none)
    {lines : List (List Char)} {cut : Option (List Char × List Char)}
    (lexed : LexedString quote lines cut) :
    LexedString quote (line :: lines) (cut.map fun cut => (line ++ '\n' :: cut.1, cut.2)) := by
  cases cut with
  | none =>
      change lexAll _ _ = _
      rw [lexAll_cons_of_none opened, List.map_cons]
      exact congrArg _ lexed
  | some cut =>
      obtain ⟨before, inside, outside, after, rfl, body, rest, closing, all⟩ := lexed
      refine ⟨line :: before, inside, outside, after, rfl, ?_, rest, closing, ?_⟩
      · have more : before ++ [inside] ≠ [] := by simp
        rw [List.cons_append, joinWith_cons more, ← body]
      · rw [lexAll_cons_of_none opened, all]
        rfl

/-- **The lexer leaves the string where the whole text does.** -/
theorem lexedString_closeTriple (newline : quote.char ≠ '\n') (lines : List (List Char)) :
    LexedString quote lines (closeTriple quote.char (joinWith '\n' lines)) := by
  fun_induction joinWith '\n' lines with
  | case1 => rfl
  | case2 line =>
      cases closed : closeTriple quote.char line with
      | none => exact lexAll_cons_of_none closed []
      | some cut => exact lexedString_of_some closed []
  | case3 line lines more ih =>
      cases closed : closeTriple quote.char line with
      | none =>
          rw [closeTriple_append_newline newline closed]
          exact ih.cons closed
      | some cut =>
          rw [closeTriple_append_of_some closed, ← joinWith_cons more]
          exact lexedString_of_some closed lines

end Lexer

/-- **Closing a triple-quoted string line by line is closing it in the whole text.**  Of either
quote, the cut of a text is behind the first triple quote that is not escaped, if there is one.
Scanning the bytes of the text ends there; so does scanning the bytes of one line after the
other, with nothing found just if no line has anything; and there the lexer leaves the string. -/
theorem closeTriple_linewise (quote : Quote) (text : List Char) :
    IsFirstCut quote.char text (closeTriple quote.char text) ∧
    findClosing (asciiByte quote.char) (encodeUtf8 text) =
      (closeTriple quote.char text).map (fun cut => byteWidth cut.1) ∧
    findClosing (asciiByte quote.char) (encodeUtf8 text) =
      findInLines (asciiByte quote.char) (splitAt '\n' text) ∧
    (findClosing (asciiByte quote.char) (encodeUtf8 text) = none ↔
      ∀ line ∈ splitAt '\n' text,
        findClosing (asciiByte quote.char) (encodeUtf8 line) = none) ∧
    LexedString quote (splitAt '\n' text) (closeTriple quote.char text) := by
  have ascii : quote.char.toNat < 0x80 := by cases quote <;> decide
  have newline : quote.char ≠ '\n' := by cases quote <;> decide
  have plain : quote.char ≠ '\\' := by cases quote <;> decide
  have joined := joinWith_splitAt '\n' text
  refine ⟨isFirstCut_closeTriple plain text, findClosing_encodeUtf8 ascii text, ?_, ?_, ?_⟩
  · rw [findInLines_eq ascii newline, joined, findClosing_encodeUtf8 ascii]
  · simp only [findClosing_encodeUtf8 ascii, Option.map_eq_none_iff]
    rw [← closeTriple_joinWith_eq_none_iff newline, joined]
  · have lexed := lexedString_closeTriple newline (splitAt '\n' text)
    rwa [joined] at lexed

end Amalgam
