/-!
# UTF-8

Texts are lists of characters and files are lists of bytes.  Decoding reads bytes one at a time, in a
state that says which continuation byte may come next, and reports each maximal ill-formed stretch as
one gap: a strict reader refuses a gap, a lenient one shows the replacement character in its place.

## Main definitions

* `byteWidth` — how many bytes a text takes
* `encodeUtf8` — the bytes of a text
* `decodeUtf8?` — the text of well-formed bytes
* `decodeLenient` — the text of any bytes, gaps shown as `U+FFFD`
-/

namespace Amalgam

/-- The bytes of a file or of a program's output. -/
abbrev Bytes := List UInt8

/-- How many bytes a text takes in UTF-8. -/
def byteWidth (cs : List Char) : Nat :=
  cs.foldr (fun c width => c.utf8Size + width) 0

/-- The UTF-8 bytes of a text. -/
def encodeUtf8 (cs : List Char) : Bytes :=
  cs.flatMap String.utf8EncodeChar

/-- A character whose first bytes were read: the next byte must lie between `lo` and `hi`, `left` bytes
are still to come after it, and `value` holds the bits read so far. -/
structure PartialChar where
  lo : Nat
  hi : Nat
  left : Nat
  value : Nat

/-- What the first byte of a character says. -/
inductive LeadByte where
  | whole (c : Char)
  | more (start : PartialChar)
  | bad

/-- The role of a byte at the start of a character. -/
def LeadByte.of (b : UInt8) : LeadByte :=
  let n := b.toNat
  if n < 0x80 then .whole (Char.ofNat n)
  else if 0xC2 ≤ n && n ≤ 0xDF then .more ⟨0x80, 0xBF, 0, n - 0xC0⟩
  else if n == 0xE0 then .more ⟨0xA0, 0xBF, 1, 0⟩
  else if n == 0xED then .more ⟨0x80, 0x9F, 1, 0xD⟩
  else if 0xE1 ≤ n && n ≤ 0xEF then .more ⟨0x80, 0xBF, 1, n - 0xE0⟩
  else if n == 0xF0 then .more ⟨0x90, 0xBF, 2, 0⟩
  else if 0xF1 ≤ n && n ≤ 0xF3 then .more ⟨0x80, 0xBF, 2, n - 0xF0⟩
  else if n == 0xF4 then .more ⟨0x80, 0x8F, 2, 4⟩
  else .bad

/-- The characters of the bytes, `none` for each maximal ill-formed stretch. -/
def decodeFrom : Option PartialChar → Bytes → List (Option Char)
  | none, [] => []
  | some _, [] => [none]
  | none, b :: bs =>
    match LeadByte.of b with
    | .whole c => some c :: decodeFrom none bs
    | .more p => decodeFrom (some p) bs
    | .bad => none :: decodeFrom none bs
  | some p, b :: bs =>
    if p.lo ≤ b.toNat && b.toNat ≤ p.hi then
      let value := p.value * 64 + (b.toNat - 0x80)
      match p.left with
      | 0 => some (Char.ofNat value) :: decodeFrom none bs
      | left + 1 => decodeFrom (some ⟨0x80, 0xBF, left, value⟩) bs
    else
      match LeadByte.of b with
      | .whole c => none :: some c :: decodeFrom none bs
      | .more q => none :: decodeFrom (some q) bs
      | .bad => none :: none :: decodeFrom none bs

/-- The text of the bytes, if they are well-formed throughout. -/
def decodeUtf8? (bytes : Bytes) : Option (List Char) :=
  (decodeFrom none bytes).mapM id

/-- The text of the bytes, with `U+FFFD` for each ill-formed stretch. -/
def decodeLenient (bytes : Bytes) : List Char :=
  (decodeFrom none bytes).map (·.getD (Char.ofNat 0xFFFD))

end Amalgam
