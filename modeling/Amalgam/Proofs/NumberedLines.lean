import Amalgam.Combined
import Amalgam.Excerpt
import Amalgam.Proofs.ClosingQuotes
import Amalgam.Proofs.Segmentation
import Mathlib.Data.List.DropRight
import Mathlib.Tactic.IntervalCases

/-!
# Line numbers and the bytes they stand for

A message about a line of a file has the number of the line, and is shown with the bytes that
the number stands for.  The numbers come from the lines of the source, where a final newline
starts no further line, and the bytes from the pieces between newlines, where it does.  The two
agree on every line, and differ in one number.

Bytes are shown by decoding them.  A cut between two characters of a text is a cut of its
bytes, and the bytes of a text decode to it.

## Main statements

* `decodeLenient_encodeUtf8`, `textBetween_byteWidth`
* `exists_showsLine`, `lineBytes_behind`, `lineBytes_eq_none_iff` — the three kinds of numbers
* `lineBytes_shows_lines`
-/

namespace Amalgam

/-! ### Decoding -/

section Decoding

variable {lo hi x : Nat} {b : UInt8}

theorem decodeFrom_lead {start : PartialChar} (lead : LeadByte.of b = .more start)
    (rest : Bytes) : decodeFrom none (b :: rest) = decodeFrom (some start) rest := by
  rw [decodeFrom, lead]

theorem decodeFrom_more (byte : b.toNat = x + 128) (within : lo ≤ x + 128 ∧ x + 128 ≤ hi)
    (left value : Nat) (rest : Bytes) :
    decodeFrom (some ⟨lo, hi, left + 1, value⟩) (b :: rest) =
      decodeFrom (some ⟨0x80, 0xBF, left, value * 64 + x⟩) rest := by
  simp [decodeFrom, byte, within]

theorem decodeFrom_last (byte : b.toNat = x + 128) (within : lo ≤ x + 128 ∧ x + 128 ≤ hi)
    (value : Nat) (rest : Bytes) :
    decodeFrom (some ⟨lo, hi, 0, value⟩) (b :: rest) =
      some (Char.ofNat (value * 64 + x)) :: decodeFrom none rest := by
  simp [decodeFrom, byte, within]

theorem leadByte_of_two (byte : b.toNat = x + 192) (above : 2 ≤ x) (below : x < 32) :
    LeadByte.of b = .more ⟨0x80, 0xBF, 0, x⟩ := by
  simp only [LeadByte.of, byte]
  interval_cases x <;> rfl

/-- The second of three bytes is bounded where there would be a shorter form or a surrogate. -/
theorem leadByte_of_three (byte : b.toNat = x + 224) (below : x < 16) :
    ∃ lo hi, LeadByte.of b = .more ⟨lo, hi, 1, x⟩ ∧
      ∀ y < 64, (x = 0 → 32 ≤ y) → (x = 13 → y < 32) → lo ≤ y + 128 ∧ y + 128 ≤ hi := by
  simp only [LeadByte.of, byte]
  interval_cases x <;> exact ⟨_, _, rfl, by omega⟩

/-- The second of four is bounded at both ends of the range of characters. -/
theorem leadByte_of_four (byte : b.toNat = x + 240) (below : x < 5) :
    ∃ lo hi, LeadByte.of b = .more ⟨lo, hi, 2, x⟩ ∧
      ∀ y < 64, (x = 0 → 16 ≤ y) → (x = 4 → y < 16) → lo ≤ y + 128 ∧ y + 128 ≤ hi := by
  simp only [LeadByte.of, byte]
  interval_cases x <;> exact ⟨_, _, rfl, by omega⟩

end Decoding

/-- **The bytes of a character decode to it.** -/
theorem decodeFrom_utf8EncodeChar (c : Char) (rest : Bytes) :
    decodeFrom none (String.utf8EncodeChar c ++ rest) = some c :: decodeFrom none rest := by
  have valid : c.toNat < 0xD800 ∨ 0xDFFF < c.toNat ∧ c.toNat < 0x110000 := c.valid
  have byte {m : Nat} (small : m < 256) : (UInt8.ofNat m).toNat = m :=
    UInt8.toNat_ofNat_of_lt' small
  -- every byte behind the first has six bits, and only the one next to it is bounded further
  have bits (m : Nat) : (UInt8.ofNat (m % 64 + 128)).toNat = m % 64 + 128 := byte (by omega)
  have within (m : Nat) : 128 ≤ m % 64 + 128 ∧ m % 64 + 128 ≤ 191 := by omega
  have char {m : Nat} (same : m = c.toNat) : some (Char.ofNat m) = some c := by
    rw [same, c.ofNat_toNat]
  simp only [String.utf8EncodeChar, Char.toNat_val]
  split_ifs with one two three
  · have whole : LeadByte.of (UInt8.ofNat c.toNat) = .whole c := by
      rw [LeadByte.of, byte (by omega), c.ofNat_toNat]
      exact if_pos (Nat.lt_succ_of_le one)
    rw [List.singleton_append, decodeFrom, whole]
  · have lead := leadByte_of_two (byte (m := c.toNat / 64 % 32 + 192) (by omega))
      (by omega) (by omega)
    rw [List.cons_append, decodeFrom_lead lead, List.singleton_append,
      decodeFrom_last (bits _) (within _), char (by omega)]
  · obtain ⟨lo, hi, lead, bounds⟩ :=
      leadByte_of_three (byte (m := c.toNat / 4096 % 16 + 224) (by omega)) (by omega)
    have second := bounds (c.toNat / 64 % 64) (by omega) (by omega) (by omega)
    rw [List.cons_append, decodeFrom_lead lead, List.cons_append, decodeFrom_more (bits _) second,
      List.singleton_append, decodeFrom_last (bits _) (within _), char (by omega)]
  · obtain ⟨lo, hi, lead, bounds⟩ :=
      leadByte_of_four (byte (m := c.toNat / 262144 % 8 + 240) (by omega)) (by omega)
    have second := bounds (c.toNat / 4096 % 64) (by omega) (by omega) (by omega)
    rw [List.cons_append, decodeFrom_lead lead, List.cons_append, decodeFrom_more (bits _) second,
      List.cons_append, decodeFrom_more (bits _) (within _), List.singleton_append,
      decodeFrom_last (bits _) (within _), char (by omega)]

/-- **The bytes of a text decode to it.** -/
theorem decodeLenient_encodeUtf8 (text : List Char) : decodeLenient (encodeUtf8 text) = text := by
  have decoded : decodeFrom none (encodeUtf8 text) = text.map some := by
    induction text with
    | nil => rfl
    | cons c cs ih => rw [encodeUtf8_cons, decodeFrom_utf8EncodeChar, ih, List.map_cons]
  rw [decodeLenient, decoded, List.map_map]
  exact List.map_id text

theorem length_encodeUtf8 (text : List Char) : (encodeUtf8 text).length = byteWidth text := by
  induction text with
  | nil => rfl
  | cons c cs ih =>
      rw [encodeUtf8_cons, List.length_append, String.length_utf8EncodeChar, ih]
      rfl

/-- **Between two ends of characters stands the text between them.** -/
theorem textBetween_byteWidth {source front text : List Char} (stands : front ++ text <+: source) :
    textBetween source (byteWidth front) (byteWidth (front ++ text)) = text := by
  obtain ⟨after, rfl⟩ := stands
  rw [textBetween, byteWidth_append, Nat.add_sub_cancel_left, encodeUtf8, List.append_assoc,
    List.flatMap_append, List.flatMap_append, ← encodeUtf8, ← encodeUtf8, ← length_encodeUtf8,
    ← length_encodeUtf8, List.drop_left, List.take_left, decodeLenient_encodeUtf8]

/-! ### Pieces and lines -/

theorem length_splitAt (sep : Char) (t : List Char) :
    (splitAt sep t).length = t.count sep + 1 := by
  induction t with
  | nil => rfl
  | cons c t ih =>
      rw [splitAt_cons]
      split
      next same => rw [List.length_cons, ih, same, List.count_cons_self]
      next other =>
        rw [List.count_cons_of_ne other, ← ih]
        cases pieces : splitAt sep t with
        | nil => simp [pieces] at ih
        | cons piece later => rfl

/-- **The pieces of a source are its lines**, and behind them an empty one if the source is empty
or ends in a newline. -/
theorem splitAt_eq_sourceLines (source : List Char) :
    splitAt '\n' source = sourceLines source ∨
      splitAt '\n' source = sourceLines source ++ [[]] := by
  unfold sourceLines dropEmptyLast
  split
  next empty => exact Or.inr (List.dropLast_append_getLast? [] empty).symm
  next => exact Or.inl rfl

/-- In a text put together from pieces, those in front of one end in a newline each. -/
theorem joinWith_append_cons (before after : List (List Char)) (piece : List Char) :
    joinWith '\n' (before ++ piece :: after) =
      before.flatMap endLine ++ joinWith '\n' (piece :: after) := by
  induction before with
  | nil => rfl
  | cons first before ih =>
      have more : before ++ piece :: after ≠ [] := by simp
      rw [List.cons_append, joinWith_cons more, ih, List.flatMap_cons, endLine, List.append_assoc,
        List.append_assoc]
      rfl

theorem foldr_byteWidth_eq (lines : List (List Char)) :
    lines.foldr (fun line width => byteWidth line + 1 + width) 0 =
      byteWidth (lines.flatMap endLine) := by
  induction lines with
  | nil => rfl
  | cons line lines ih =>
      rw [List.foldr_cons, ih, List.flatMap_cons, byteWidth_append, endLine, byteWidth_append]
      rfl

/-- **A text is a line without the carriage returns at its end.** -/
def IsTrimmed (line text : List Char) : Prop :=
  text.getLast? ≠ some '\r' ∧ ∃ k, line = text ++ List.replicate k '\r'

theorem isTrimmed_dropCarriageReturns (line : List Char) :
    IsTrimmed line (dropCarriageReturns line) := by
  induction line using List.reverseRecOn with
  | nil => exact ⟨nofun, 0, rfl⟩
  | append_singleton line c ih =>
      have step : dropCarriageReturns (line ++ [c]) =
          if c == '\r' then dropCarriageReturns line else line ++ [c] :=
        List.rdropWhile_concat (· == '\r') line c
      rw [step]
      split
      next cr =>
        obtain ⟨last, k, whole⟩ := ih
        refine ⟨last, k + 1, ?_⟩
        rw [List.replicate_succ', ← List.append_assoc, ← whole, eq_of_beq cr]
      next other =>
        refine ⟨?_, 0, (List.append_nil _).symm⟩
        rw [List.getLast?_concat]
        exact fun same => other (beq_iff_eq.mpr (Option.some.inj same))

/-! ### Numbers -/

/-- **A range of bytes shows a line** that stands in a source behind `front`: it is the range of
a text, from one end of characters to another, this text is the line without the carriage
returns at its end, and the bytes of the range decode to it. -/
def ShowsLine (source front line : List Char) (range : Nat × Nat) : Prop :=
  front ++ line <+: source ∧ ∃ text, IsTrimmed line text ∧
    range = (byteWidth front, byteWidth (front ++ text)) ∧
    textBetween source range.1 range.2 = text

section Numbers

variable {source line : List Char} {before after : List (List Char)} {n : Nat}

/-- The bytes of a piece are behind those of the pieces in front of it, with their newlines. -/
theorem lineBytes_of_splitAt (pieces : splitAt '\n' source = before ++ line :: after) :
    lineBytes source (before.length + 1) = some (byteWidth (before.flatMap endLine),
      byteWidth (before.flatMap endLine ++ dropCarriageReturns line)) := by
  simp [lineBytes, pieces, foldr_byteWidth_eq, byteWidth_append]

theorem front_prefix_of_splitAt (pieces : splitAt '\n' source = before ++ line :: after) :
    before.flatMap endLine ++ line <+: source := by
  rw [← joinWith_splitAt '\n' source, pieces, joinWith_append_cons, List.prefix_append_right_inj]
  cases after with
  | nil => exact List.prefix_rfl
  | cons next later => exact List.prefix_append _ _

/-- **The number of a line shows it.** -/
theorem exists_showsLine (found : (sourceLines source)[n]? = some line) :
    ∃ range, lineBytes source (n + 1) = some range ∧
      ShowsLine source (((sourceLines source).take n).flatMap endLine) line range := by
  obtain ⟨before, after, lines, rfl⟩ := exists_split_of_getElem? found
  obtain ⟨behind, pieces⟩ : ∃ behind, splitAt '\n' source = before ++ line :: behind := by
    rcases splitAt_eq_sourceLines source with same | same
    · exact ⟨after, same.trans lines⟩
    · exact ⟨after ++ [[]], by rw [same, lines, List.append_assoc, List.cons_append]⟩
  have stands := front_prefix_of_splitAt pieces
  have trimmed := isTrimmed_dropCarriageReturns line
  have shown : before.flatMap endLine ++ dropCarriageReturns line <+: source := by
    obtain ⟨-, k, whole⟩ := trimmed
    refine List.IsPrefix.trans ?_ stands
    rw [List.prefix_append_right_inj]
    exact ⟨_, whole.symm⟩
  rw [lines, List.take_left]
  exact ⟨_, lineBytes_of_splitAt pieces, stands, _, trimmed, rfl, textBetween_byteWidth shown⟩

/-- **The one number that has bytes and no line** is that of the empty piece at the end. -/
theorem lineBytes_behind (behind : (sourceLines source).length < n)
    (within : n ≤ source.count '\n' + 1) :
    lineBytes source n = some (byteWidth source, byteWidth source) := by
  have count := length_splitAt '\n' source
  rcases splitAt_eq_sourceLines source with same | same
  · rw [same] at count
    omega
  · have last : n = (sourceLines source).length + 1 := by
      rw [same, List.length_append, List.length_singleton] at count
      omega
    have whole : (sourceLines source).flatMap endLine ++ [] = source :=
      calc (sourceLines source).flatMap endLine ++ joinWith '\n' [[]]
        _ = joinWith '\n' (splitAt '\n' source) := by rw [same, joinWith_append_cons]
        _ = source := joinWith_splitAt '\n' source
    have shown := lineBytes_of_splitAt same
    rw [show dropCarriageReturns [] = [] from rfl, whole] at shown
    rw [List.append_nil] at whole
    rw [last, shown, whole]

/-- Other numbers have no bytes. -/
theorem lineBytes_eq_none_iff :
    lineBytes source n = none ↔ n = 0 ∨ source.count '\n' + 1 < n := by
  cases n with
  | zero => exact iff_of_true rfl (Or.inl rfl)
  | succ n =>
      rw [lineBytes, Option.map_eq_none_iff, List.getElem?_eq_none_iff, length_splitAt]
      omega

end Numbers

/-- **The number of a line stands for its bytes.**  The number of every line of a source has a
range, which shows the line behind the lines in front of it; the number behind the last line of
a source that is empty or ends in a newline has the empty range at the end; and no other number
has any: not zero, and none that exceeds the number of newlines by more than one. -/
theorem lineBytes_shows_lines (source : List Char) :
    (∀ n line, (sourceLines source)[n]? = some line →
      ∃ range, lineBytes source (n + 1) = some range ∧
        ShowsLine source (((sourceLines source).take n).flatMap endLine) line range) ∧
    (∀ n, (sourceLines source).length < n → n ≤ source.count '\n' + 1 →
      lineBytes source n = some (byteWidth source, byteWidth source)) ∧
    ∀ n, lineBytes source n = none ↔ n = 0 ∨ source.count '\n' + 1 < n :=
  ⟨fun _ _ found => exists_showsLine found, fun _ behind within => lineBytes_behind behind within,
    fun _ => lineBytes_eq_none_iff⟩

/-- Lines with carriage returns and with characters of several bytes, and a final newline. -/
def accentedSource : List Char :=
  "é = 1\r\n\r\nx\n".toList

theorem lineBytes_shows_lines_accentedSource :
    (∃ range, lineBytes accentedSource 2 = some range ∧
      ShowsLine accentedSource "é = 1\r\n".toList ['\r'] range) ∧
    lineBytes accentedSource 4 = some (12, 12) ∧ lineBytes accentedSource 5 = none := by
  obtain ⟨shown, behind, absent⟩ := lineBytes_shows_lines accentedSource
  exact ⟨shown 1 ['\r'] (by decide), behind 4 (by decide) (by decide),
    (absent 5).mpr (Or.inr (by decide))⟩

end Amalgam
