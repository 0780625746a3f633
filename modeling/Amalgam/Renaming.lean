import Amalgam.Line
import Amalgam.Symbol.Registry
import Amalgam.Symbol.Table
import Amalgam.Text.IdentChar

/-!
# Renaming

A renaming replaces source spellings by identifiers in the code of a line.  A key is replaced where it
does not continue a longer name: the character before it is neither an identifier character nor a dot, and
the character after it is no identifier character.  Both look at the whole line, across the borders of
segments, while the key itself has to lie in one code segment.  At one place the longest key counts, and
replaced text is not looked at again.

## Main definitions

* `Renaming`, `Renaming.ofPairs`, `Renaming.ofTable`
* `Renaming.ruleAt?` — the key that counts at a place
* `Renaming.code`, `Renaming.segments` — a segment and a line, renamed
* `Renaming.line` — the renamed text of a lexed line
-/

namespace Amalgam

/-- A key and its replacement. -/
structure Renaming.Rule where
  key : List Char
  replacement : List Char
  deriving DecidableEq, Repr

/-- Rules with distinct keys, longer keys first and keys of one length in order. -/
structure Renaming where
  rules : List Renaming.Rule := []
  deriving DecidableEq, Repr

namespace Renaming

/-- Does key `a` stand before key `b`? -/
def Rule.before (a b : List Char) : Bool :=
  byteWidth b < byteWidth a || (byteWidth a == byteWidth b && decide (a < b))

/-- Ordered rules with one more, unless its key is there. -/
def insertRule (rule : Rule) : List Rule → List Rule
  | [] => [rule]
  | other :: rest =>
    if rule.key = other.key then other :: rest
    else if Rule.before rule.key other.key then rule :: other :: rest
    else other :: insertRule rule rest

/-- The renaming with the given keys and replacements.  The first pair of a key counts, and an empty key
never does. -/
def ofPairs (pairs : List (String × String)) : Renaming :=
  ⟨(pairs.filter (·.1 ≠ "")).foldl
    (fun rules (key, replacement) => insertRule ⟨key.toList, replacement.toList⟩ rules) []⟩

/-- The renaming of a module: each name it knows becomes the identifier of what the name means. -/
def ofTable (table : SymbolTable) (registry : Registry) : Renaming :=
  ofPairs ((table.own.entries ++ table.seen.entries).map fun (name, qualified) =>
    (name, registry.identifierOf qualified))

/-- Can a name start after this character? -/
def startsAfter : Option Char → Bool
  | none => true
  | some c => !isIdentChar c && c != '.'

/-- Can a name end before this character? -/
def endsBefore : Option Char → Bool
  | none => true
  | some c => !isIdentChar c

/-- The rule that counts at the start of `cs`, the rest of a segment; `after` is the first character
behind the segment. -/
def ruleAt? (r : Renaming) (after : Option Char) (cs : List Char) : Option Rule :=
  r.rules.find? fun rule =>
    rule.key.isPrefixOf cs && endsBefore ((cs.drop rule.key.length).head? <|> after)

/-- Renames the rest of a code segment.  `skip` characters belong to a key already replaced, `pos` is the
byte of the line at which the rest starts, and `before` the character in front of it.  A name that starts
at a byte in `keep` stays as it is. -/
def code (r : Renaming) (keep : List Nat) (after : Option Char) :
    Nat → Nat → Option Char → List Char → List Char
  | _, _, _, [] => []
  | skip + 1, pos, _, c :: cs => r.code keep after skip (pos + c.utf8Size) (some c) cs
  | 0, pos, before, c :: cs =>
    if startsAfter before && isIdentChar c && !keep.contains pos then
      match r.ruleAt? after (c :: cs) with
      | some rule =>
        rule.replacement ++
          r.code keep after (rule.key.length - 1) (pos + c.utf8Size) (some c) cs
      | none => c :: r.code keep after 0 (pos + c.utf8Size) (some c) cs
    else c :: r.code keep after 0 (pos + c.utf8Size) (some c) cs

/-- Renames the rest of a line, which starts at byte `pos` after the character `before`. -/
def segments (r : Renaming) (keep : List Nat) : Nat → Option Char → List Segment → List Char
  | _, _, [] => []
  | pos, before, s :: rest =>
    let renamed := match s.kind with
      | .literal => s.text
      | .code => r.code keep (Segment.textOf rest).head? 0 pos before s.text
    renamed ++ r.segments keep (pos + byteWidth s.text) (s.text.getLast? <|> before) rest

/-- Renames a line, except names that start at a byte in `keep`. -/
def line (r : Renaming) (keep : List Nat) (lexed : LexedLine) : List Char :=
  r.segments keep 0 none lexed.segments

end Renaming

end Amalgam
