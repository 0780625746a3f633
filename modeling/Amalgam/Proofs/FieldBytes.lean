import Amalgam.Proofs.ClosingQuotes

/-!
# Where the fields of a formatted string are, in bytes

The body of a formatted string may be cut into pieces without decoding it.  A backslash and a
doubled brace take two bytes, a brace is one byte, and a field ends with the brace that brings
its depth to nought.  What a backslash takes need not be a whole character.  The bytes that are
left of it are above all one-byte characters, so they are neither brace nor backslash and
belong to the piece they are in.

A piece is then a kind and a number of bytes, and adding up the numbers gives the places in the
line where the pieces begin.

## Main statements

* `extents_fieldPieces` — the bytes of a body have the pieces of its characters
* `extents_pieces_formatted` — the same for the whole string, with its quotes
-/

namespace Amalgam

/-- Pieces of a text, each by its kind and its number of bytes. -/
abbrev Extents := List (Segment.Kind × Nat)

namespace Segment

/-- The pieces without their texts. -/
def extents (pieces : List Segment) : Extents :=
  pieces.map fun piece => (piece.kind, byteWidth piece.text)

end Segment

namespace Extents

/-- Makes the first piece longer. -/
def widen (bytes : Nat) : Extents → Extents
  | [] => []
  | (kind, width) :: rest => (kind, bytes + width) :: rest

theorem widen_zero (pieces : Extents) : widen 0 pieces = pieces := by
  cases pieces with
  | nil => rfl
  | cons piece rest => rw [widen, Nat.zero_add]

theorem widen_widen (m n : Nat) (pieces : Extents) :
    widen m (widen n pieces) = widen (m + n) pieces := by
  cases pieces with
  | nil => rfl
  | cons piece rest => rw [widen, widen, widen, Nat.add_assoc]

end Extents

/-! ### Scanning bytes -/

/-- The pieces of the rest of a body, found in its bytes.  `field` is `none` in literal text and
`some d` inside a field, `d` braces deeper than its own; `closing` bytes follow the body. -/
def scanFields (closing : Nat) : Option Nat → Bytes → Extents
  | none, [] => [(.literal, closing)]
  | none, b :: bs =>
    if b = asciiByte '\\' ∨ b = asciiByte '{' ∧ bs.head? = some (asciiByte '{') then
      Extents.widen (b :: bs.take 1).length (scanFields closing none (bs.drop 1))
    else if b = asciiByte '{' then (.literal, 1) :: scanFields closing (some 0) bs
    else Extents.widen 1 (scanFields closing none bs)
  | some _, [] => [(.code, 0), (.literal, closing)]
  | some depth, b :: bs =>
    if b = asciiByte '{' then Extents.widen 1 (scanFields closing (some (depth + 1)) bs)
    else if b = asciiByte '}' then
      if depth = 0 then (.code, 0) :: Extents.widen 1 (scanFields closing none bs)
      else Extents.widen 1 (scanFields closing (some (depth - 1)) bs)
    else Extents.widen 1 (scanFields closing (some depth) bs)
termination_by _ bytes => bytes.length

section Scan

variable (closing : Nat)

/-- A byte that is neither brace nor backslash belongs to the piece it is in. -/
theorem scanFields_plain {b : UInt8} (slash : b ≠ asciiByte '\\') (opens : b ≠ asciiByte '{')
    (closes : b ≠ asciiByte '}') (field : Option Nat) (bytes : Bytes) :
    scanFields closing field (b :: bytes) = Extents.widen 1 (scanFields closing field bytes) := by
  cases field with
  | none =>
      rw [scanFields, if_neg (not_or.mpr ⟨slash, fun both => opens both.1⟩), if_neg opens]
  | some depth => rw [scanFields, if_neg opens, if_neg closes]

/-- Bytes above the one-byte characters are passed over. -/
theorem scanFields_append_high {front : Bytes} (high : ∀ b ∈ front, 0x80 ≤ b.toNat)
    (field : Option Nat) (bytes : Bytes) :
    scanFields closing field (front ++ bytes) =
      Extents.widen front.length (scanFields closing field bytes) := by
  induction front with
  | nil => exact (Extents.widen_zero _).symm
  | cons b front ih =>
      obtain ⟨above, high⟩ := List.forall_mem_cons.mp high
      have other : ∀ {c : Char}, c.toNat < 0x80 → b ≠ asciiByte c := by
        rintro c ascii rfl
        exact absurd (toNat_asciiByte_lt ascii) (Nat.not_lt_of_le above)
      rw [List.cons_append, scanFields_plain closing (other (by decide)) (other (by decide))
        (other (by decide)), ih high, Extents.widen_widen, List.length_cons, Nat.add_comm]

/-- A backslash takes the first byte of a character, and the others are passed over. -/
theorem scanFields_escape {c d : Char} (escape : IsEscape c d) (cs : List Char) :
    scanFields closing none (encodeUtf8 (c :: d :: cs)) =
      Extents.widen (1 + d.utf8Size) (scanFields closing none (encodeUtf8 cs)) := by
  have ascii : c.toNat < 0x80 := by
    rcases escape with rfl | ⟨rfl, -⟩ <;> decide
  have wide : 1 ≤ (String.utf8EncodeChar d).length := by
    rw [String.length_utf8EncodeChar]
    exact d.utf8Size_pos
  have two : asciiByte c = asciiByte '\\' ∨ asciiByte c = asciiByte '{' ∧
      (String.utf8EncodeChar d ++ encodeUtf8 cs).head? = some (asciiByte '{') := by
    rcases escape with rfl | ⟨rfl, rfl⟩
    · exact Or.inl rfl
    · exact Or.inr ⟨rfl, rfl⟩
  -- two bytes are taken, so of `d` only bytes are left that are passed over
  rw [encodeUtf8_cons_ascii ascii, encodeUtf8_cons, scanFields, if_pos two,
    List.drop_append_of_le_length wide, scanFields_append_high closing (tail_utf8EncodeChar_high d),
    Extents.widen_widen, List.take_append_of_le_length wide, List.length_cons, List.length_take,
    List.length_drop]
  rw [String.length_utf8EncodeChar] at wide ⊢
  congr 1
  omega

/-- A single brace opens a field. -/
theorem scanFields_opens {cs : List Char} (single : ∀ ds, cs = '{' :: ds → False) :
    scanFields closing none (encodeUtf8 ('{' :: cs)) =
      (.literal, 1) :: scanFields closing (some 0) (encodeUtf8 cs) := by
  have noDouble : (encodeUtf8 cs).head? ≠ some (asciiByte '{') := by
    intro head
    obtain ⟨bytes, rest⟩ := List.head?_eq_some_iff.mp head
    have start : asciiByte '{' :: bytes <+: encodeUtf8 cs := rest ▸ List.prefix_rfl
    obtain ⟨ds, opens, -⟩ := (cons_prefix_encodeUtf8 (by decide)).mp start
    exact single ds opens
  have slash : asciiByte '{' ≠ asciiByte '\\' := by decide
  rw [encodeUtf8_cons_ascii (by decide), scanFields,
    if_neg (not_or.mpr ⟨slash, fun both => noDouble both.2⟩), if_pos rfl]

/-- A character that is no brace, and no backslash in front of another, belongs to the piece it
is in. -/
theorem scanFields_char {c : Char} {cs : List Char} {field : Option Nat} (opens : c ≠ '{')
    (slash : field = none → c = '\\' → cs = []) (closes : field ≠ none → c ≠ '}') :
    scanFields closing field (encodeUtf8 (c :: cs)) =
      Extents.widen c.utf8Size (scanFields closing field (encodeUtf8 cs)) := by
  rw [encodeUtf8_cons]
  by_cases ascii : c.toNat < 0x80
  · have other : ∀ {d : Char}, d.toNat < 0x80 → c ≠ d → asciiByte c ≠ asciiByte d :=
      fun asciiD differ same => differ ((asciiByte_inj ascii asciiD).mp same)
    have noOpen := other (by decide) opens
    rw [utf8EncodeChar_ascii ascii, List.singleton_append, utf8Size_ascii ascii]
    cases field with
    | none =>
        by_cases same : c = '\\'
        · rw [slash rfl same, same, scanFields, if_pos (Or.inl rfl)]
          rfl
        · have noSlash := other (by decide) same
          rw [scanFields, if_neg (not_or.mpr ⟨noSlash, fun both => noOpen both.1⟩), if_neg noOpen]
    | some depth =>
        have noClose := other (by decide) (closes (Option.some_ne_none depth))
        rw [scanFields, if_neg noOpen, if_neg noClose]
  · rw [scanFields_append_high closing (utf8EncodeChar_high ascii), String.length_utf8EncodeChar]

end Scan

/-! ### The same pieces -/

theorem extents_attach (c : Char) (pieces : List Segment) :
    Segment.extents (Segment.attach c pieces) =
      Extents.widen c.utf8Size (Segment.extents pieces) := by
  cases pieces <;> rfl

/-- **The bytes of a body have the pieces of its characters.** -/
theorem extents_fieldPieces (closing : List Char) (field : Option Nat) (body : List Char) :
    Segment.extents (fieldPieces closing field body) =
      scanFields (byteWidth closing) field (encodeUtf8 body) := by
  fun_induction fieldPieces closing field body with
  | case1 =>
      change _ = scanFields _ none []
      rw [scanFields]
      rfl
  | case2 c cs ih =>
      rw [extents_attach, extents_attach, ih, scanFields_escape _ (Or.inl rfl),
        Extents.widen_widen]
      rfl
  | case3 cs ih =>
      rw [extents_attach, extents_attach, ih, scanFields_escape _ (Or.inr ⟨rfl, rfl⟩),
        Extents.widen_widen]
      rfl
  | case4 cs single ih =>
      rw [scanFields_opens _ single, ← ih]
      rfl
  | case5 c cs noEscape noDouble noBrace ih =>
      -- a backslash may be the last character, and takes nothing then
      rw [extents_attach, ih, scanFields_char _ noBrace ?_ (absurd rfl)]
      intro _ slash
      cases cs with
      | nil => rfl
      | cons d ds => exact (noEscape d ds slash rfl).elim
  | case6 d =>
      change _ = scanFields _ (some d) []
      rw [scanFields]
      rfl
  | case7 cs ih =>
      -- the brace is behind the field, which ends with the piece of code
      rw [encodeUtf8_cons_ascii (by decide), scanFields, if_neg (by decide), if_pos rfl, if_pos rfl,
        ← ih]
      exact congrArg ((Segment.Kind.code, 0) :: ·) (extents_attach '}' _)
  | case8 d cs ih =>
      rw [encodeUtf8_cons_ascii (by decide), scanFields, if_neg (by decide), if_pos rfl,
        if_neg d.succ_ne_zero, extents_attach, ih]
      rfl
  | case9 d cs ih =>
      rw [encodeUtf8_cons_ascii (by decide), scanFields, if_pos rfl, extents_attach, ih]
      rfl
  | case10 d c cs notLast noClose noOpen ih =>
      have other : c ≠ '}' := by
        cases d with
        | zero => exact notLast rfl
        | succ d => exact noClose d rfl
      rw [extents_attach, ih, scanFields_char _ noOpen ?_ fun _ => other]
      intro same
      cases same

/-- **The bytes of a formatted string have its pieces**, with its quotes. -/
theorem extents_pieces_formatted (opening body closing : List Char) :
    Segment.extents (Lexeme.formatted opening body closing).pieces =
      Extents.widen (byteWidth opening)
        (scanFields (byteWidth closing) none (encodeUtf8 body)) := by
  rw [← extents_fieldPieces, Lexeme.pieces]
  induction opening with
  | nil => exact (Extents.widen_zero _).symm
  | cons c opening ih =>
      rw [List.foldr_cons, extents_attach, ih, Extents.widen_widen]
      rfl

end Amalgam
