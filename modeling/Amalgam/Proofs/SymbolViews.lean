import Amalgam.Proofs.CompleteImports
import Amalgam.Proofs.NameEdges
import Amalgam.Proofs.TableKeys
import Amalgam.Proofs.WrittenWords

/-!
# Three views of a symbol table

What a name means in a module is asked in three ways.  A clause of another module asks for
one name (`SymbolTable.resolve?`) or for all that can be reached (`SymbolTable.exported`), and
the text of the module is written with a renaming (`Renaming.ofTable`).  Each of the three
lets declarations shadow aliases by a means of its own: the first looks into two maps in turn,
the second filters one map by the other, and the third merges both and keeps the first rule of
a key.  This module shows that they agree on every table that declarations and aliases can
make, in any order.

The renaming is asked by writing a line that is nothing but the name.  Such a line is one
stretch of code (`segments_lexFresh_of_isKey`).  At its start the longest key that fits counts,
and a key that is the whole line is longer than any other (`Renaming.rename_of_image?`); a key
that is only the beginning of a word does not fit (`Renaming.rename_of_isWord`).

## Main statements

* `Renaming.rename_of_image?`, `Renaming.rename_of_isWord`
* `SymbolTable.Made.mem_exported_iff`
* `symbol_views_agree`
-/

namespace Amalgam

open Renaming

/-! ### Names -/

/-- **An undotted identifier**: identifier characters only. -/
structure IsWord (name : String) : Prop where
  nonempty : name ≠ ""
  chars : ∀ c ∈ name.toList, isIdentChar c = true

instance (name : String) : Decidable (IsWord name) :=
  decidable_of_iff (name ≠ "" ∧ name.toList.all isIdentChar = true)
    ⟨fun both => ⟨both.1, List.all_eq_true.mp both.2⟩,
      fun word => ⟨word.nonempty, List.all_eq_true.mpr word.chars⟩⟩

/-- **A dotted name**: undotted identifiers with dots between them. -/
def IsDottedName (name : String) : Prop :=
  ∃ parts : List String, 2 ≤ parts.length ∧ (∀ part ∈ parts, IsWord part) ∧
    name = ".".intercalate parts

theorem IsWord.isKey {name : String} (word : IsWord name) : IsKey name.toList := by
  obtain ⟨c, cs, text⟩ := List.exists_cons_of_ne_nil fun empty =>
    word.nonempty (String.toList_eq_nil_iff.mp empty)
  exact ⟨⟨c, cs, text, word.chars c (text ▸ List.mem_cons_self)⟩,
    fun d member => Or.inl (word.chars d member)⟩

theorem IsDottedName.isKey {name : String} (dotted : IsDottedName name) : IsKey name.toList := by
  obtain ⟨parts, several, words, rfl⟩ := dotted
  exact isKey_intercalate (List.ne_nil_of_length_pos (by omega)) fun part member =>
    (words part member).isKey

/-! ### A line that is a name -/

/-- The lexemes of a text without quotes and comments are program text. -/
theorem isCode_of_mem_lexemes {cs : List Char} (plain : ∀ c ∈ cs, isQuote c = false ∧ c ≠ '#') :
    ∀ l ∈ lexemes cs, l.isCode = true := by
  fun_induction lexemes cs with
  | case1 => simp
  | case2 c cs ih =>
      have opens : opening? (c :: cs) = none := by
        rw [Option.eq_none_iff_forall_ne_some]
        intro o opens
        obtain ⟨shape, -⟩ := opening?_eq_some opens
        have member : o.quote.char ∈ c :: cs := by simp [shape]
        have quote := (plain _ member).1
        rw [isQuote_char] at quote
        cases quote
      obtain ⟨text, -⟩ := Lexeme.next_fits_of_plain opens
      intro l member
      rcases List.mem_cons.mp member with rfl | later
      · rw [Lexeme.next, opens]
        dsimp only
        unfold Lexeme.nextPlain
        rw [if_neg (plain c List.mem_cons_self).2]
        split
        · rfl
        · split
          · rfl
          · split
            · rfl
            · split <;> rfl
      · refine ih (fun d inRest => plain d ?_) l later
        rw [← text]
        exact List.mem_append_right _ inRest

/-- Program text is one segment. -/
theorem segmentsOf_of_isCode {ls : List Lexeme} (code : ∀ l ∈ ls, l.isCode = true) :
    segmentsOf ls = Segment.push ⟨.code, Lexeme.textOf ls⟩ [] := by
  induction ls with
  | nil => rfl
  | cons l ls ih =>
      have pieces : l.pieces = [⟨.code, l.text⟩] := by
        have first := code l List.mem_cons_self
        cases l with
        | blank text => rfl
        | token kind text => rfl
        | literal text => cases first
        | formatted opening body closing => cases first
        | unclosed quote text => cases first
      rw [segmentsOf_cons, pieces, ih fun other later => code other (List.mem_cons_of_mem _ later)]
      change Segment.push ⟨.code, l.text⟩ (Segment.push ⟨.code, Lexeme.textOf ls⟩ []) = _
      rw [push_code_append, Lexeme.textOf_cons]

/-- **A line that is a key is one stretch of code.** -/
theorem segments_lexFresh_of_isKey {cs : List Char} (key : IsKey cs) :
    (lexFresh cs).segments = [⟨.code, cs⟩] := by
  have plain : ∀ c ∈ cs, isQuote c = false ∧ c ≠ '#' := by
    intro c member
    -- a name can start behind a quote and behind a comment sign
    have inside := key.startsAfter_eq_false member
    constructor
    · rw [Bool.eq_false_iff]
      intro quote
      obtain ⟨q, leads⟩ := Option.isSome_iff_exists.mp quote
      rw [Quote.char_of_ofChar? leads, startsAfter_char] at inside
      cases inside
    · rintro rfl
      revert inside
      decide
  have whole := segmentsOf_of_isCode (isCode_of_mem_lexemes plain)
  rw [(lexemes_reads cs).1] at whole
  refine whole.trans ?_
  obtain ⟨c, rest, rfl, -⟩ := key.start
  rfl

namespace Renaming

variable {r : Renaming}

/-- Where no name can start, the text stays. -/
theorem code_eq_self {keep : List Nat} {after : Option Char} {cs : List Char}
    (inside : ∀ c ∈ cs, startsAfter (some c) = false) :
    ∀ pos before, startsAfter before = false → r.code keep after 0 pos before cs = cs := by
  induction cs with
  | nil => exact fun _ _ _ => rfl
  | cons c cs ih =>
      intro pos before blocked
      have next := ih (fun d later => inside d (List.mem_cons_of_mem _ later))
        (pos + c.utf8Size) (some c) (inside c List.mem_cons_self)
      rw [code, blocked, Bool.false_and, Bool.false_and, if_neg Bool.false_ne_true, next]

/-- The text of a line, renamed. -/
def rename (r : Renaming) (line : String) : String :=
  String.ofList (r.line [] (lexFresh line.toList))

/-- A line that is a key is renamed as code. -/
theorem rename_of_isKey {line : String} (key : IsKey line.toList) :
    r.rename line = String.ofList (r.code [] none 0 0 none line.toList) := by
  rw [rename, Renaming.line, segments_lexFresh_of_isKey key]
  exact congrArg String.ofList (List.append_nil _)

/-- A rule whose key is the line replaces the line. -/
theorem code_of_ruleAt? {cs : List Char} (key : IsKey cs) {rule : Rule}
    (found : r.ruleAt? none cs = some rule) (whole : rule.key = cs) :
    r.code [] none 0 0 none cs = rule.replacement := by
  obtain ⟨c, rest, rfl, ident⟩ := key.start
  have all : rule.key.length - 1 = rest.length := by rw [whole]; rfl
  obtain ⟨pos, dropped⟩ := r.code_skip [] none rest.length (0 + c.utf8Size) (some c) rest
    (Nat.le_refl _)
  rw [List.drop_length] at dropped
  rw [code, ident, found]
  change rule.replacement ++ r.code [] none (rule.key.length - 1) (0 + c.utf8Size) (some c) rest = _
  rw [all, dropped]
  exact List.append_nil _

/-- **A line that is a key becomes the word of that key**, whatever other keys it begins
with. -/
theorem rename_of_image? (sorted : Sorted r.rules) {line word : String}
    (key : IsKey line.toList) (becomes : r.image? line = some word) : r.rename line = word := by
  have known : (⟨line.toList, word.toList⟩ : Rule) ∈ r.rules := mem_rules_of_image? becomes
  have ends : endsBefore ((line.toList.drop line.toList.length).head? <|> none) = true := by
    rw [List.drop_length]
    rfl
  obtain ⟨rule, found⟩ : ∃ rule, r.ruleAt? none line.toList = some rule := by
    refine Option.isSome_iff_exists.mp (List.find?_isSome.mpr ⟨_, known, ?_⟩)
    rw [Bool.and_eq_true]
    exact ⟨List.isPrefixOf_iff_prefix.mpr (List.prefix_refl _), ends⟩
  obtain ⟨member, rest, text, -⟩ := ruleAt?_eq_some found
  have longest := ruleAt?_longest sorted found known (List.prefix_refl _) ends
  have whole : rule.key = line.toList :=
    List.IsPrefix.eq_of_length_le ⟨rest, text.symm⟩ longest
  have same : rule = ⟨line.toList, word.toList⟩ := sorted.eq_of_key member known whole
  rw [rename_of_isKey key, code_of_ruleAt? key found whole, same, String.ofList_toList]

/-- **A word that is no key stays**: a key that is its beginning does not end there. -/
theorem rename_of_isWord {line : String} (word : IsWord line) (unknown : r.image? line = none) :
    r.rename line = line := by
  have key := word.isKey
  have none_fits : r.ruleAt? none line.toList = none := by
    rw [Option.eq_none_iff_forall_ne_some]
    intro rule found
    obtain ⟨member, rest, text, ends⟩ := ruleAt?_eq_some found
    cases rest with
    | nil =>
        rw [List.append_nil] at text
        have absent := List.find?_eq_none.mp (Option.map_eq_none_iff.mp unknown) rule member
        exact absent (decide_eq_true text.symm)
    | cons c rest =>
        have ident := word.chars c (text ▸ List.mem_append_right _ List.mem_cons_self)
        have blocked : endsBefore (some c) = true := ends
        rw [endsBefore, ident] at blocked
        cases blocked
  rw [rename_of_isKey key]
  obtain ⟨c, rest, text, ident⟩ := key.start
  rw [text] at none_fits key
  have stays : r.code [] none 0 (0 + c.utf8Size) (some c) rest = rest :=
    code_eq_self (fun d later => key.startsAfter_eq_false (List.mem_cons_of_mem c later)) _ _
      (key.startsAfter_eq_false List.mem_cons_self)
  rw [text, code, ident, none_fits, stays]
  exact (congrArg String.ofList text.symm).trans (String.ofList_toList)

end Renaming

/-! ### Tables that calls make -/

/-- **A table that calls make**: declarations of undotted names in one scope and aliases of any
kind, in any order. -/
inductive SymbolTable.Made (scope : String) : SymbolTable → Prop
  | empty : Made scope {}
  | declare {t : SymbolTable} {name : String} (made : Made scope t)
      (plain : SymbolTable.undotted name = true) : Made scope (t.declare scope name)
  | bind {t : SymbolTable} (made : Made scope t) (label qualified : String) :
      Made scope (t.bind label qualified)

namespace SymbolTable

variable {scope : String} {t : SymbolTable}

theorem Made.sorted (made : Made scope t) : t.Sorted := by
  induction made with
  | empty => exact ⟨List.Pairwise.nil, List.Pairwise.nil⟩
  | declare _ _ ih => exact ⟨ih.own.insert _ _, ih.seen⟩
  | bind _ label qualified ih => exact ⟨ih.own, ih.seen.insert label qualified⟩

/-- Declared names have no dots. -/
theorem Made.undotted_own (made : Made scope t) :
    ∀ entry ∈ t.own.entries, undotted entry.1 = true := by
  induction made with
  | empty => simp
  | @declare t name _ plain ih =>
      intro entry member
      rcases NameMap.mem_entries_insert member with rfl | old
      · exact plain
      · exact ih entry old
  | bind _ _ _ ih => exact ih

/-- **What is exported**: the undotted names that mean something, with their meanings. -/
theorem Made.mem_exported_iff (made : Made scope t) {name qualified : String} :
    (name, qualified) ∈ t.exported ↔
      undotted name = true ∧ t.resolve? name = some qualified := by
  have own : t.own.find? name = some qualified ↔ (name, qualified) ∈ t.own.entries :=
    lookup_eq_some_iff_mem made.sorted.own.nodup
  have seen : t.seen.find? name = some qualified ↔ (name, qualified) ∈ t.seen.entries :=
    lookup_eq_some_iff_mem made.sorted.seen.nodup
  rw [exported, List.mem_append, List.mem_filter, resolve?_eq, Option.or_eq_some_iff, ← own,
    ← seen, Bool.and_eq_true, NameMap.contains, Bool.not_eq_true', Option.isSome_eq_false_iff,
    Option.isNone_iff_eq_none]
  constructor
  · rintro (declared | ⟨bound, plain, unshadowed⟩)
    · exact ⟨made.undotted_own _ (own.mp declared), Or.inl declared⟩
    · exact ⟨plain, Or.inr ⟨unshadowed, bound⟩⟩
  · rintro ⟨plain, declared | ⟨unshadowed, bound⟩⟩
    · exact Or.inl declared
    · exact Or.inr ⟨bound, plain, unshadowed⟩

/-- A dotted name means what it is bound to. -/
theorem Made.resolve?_of_dotted (made : Made scope t) {name : String}
    (dotted : undotted name = false) : t.resolve? name = t.seen.find? name := by
  have undeclared : t.own.find? name = none := by
    rw [Option.eq_none_iff_forall_ne_some]
    intro qualified declared
    have plain := made.undotted_own _ (NameMap.mem_entries_of_find? declared)
    rw [dotted] at plain
    cases plain
  rw [resolve?_eq, undeclared, Option.none_or]

end SymbolTable

/-! ### The views agree -/

theorem IsDottedName.undotted_eq_false {name : String} (dotted : IsDottedName name) :
    SymbolTable.undotted name = false := by
  obtain ⟨parts, several, -, rfl⟩ := dotted
  obtain ⟨first, rest, rfl⟩ := List.exists_cons_of_ne_nil
    (List.ne_nil_of_length_pos (Nat.lt_of_lt_of_le Nat.zero_lt_two several))
  obtain ⟨second, rest, rfl⟩ := List.exists_cons_of_ne_nil (l := rest)
    (List.ne_nil_of_length_pos (Nat.lt_of_succ_lt_succ several))
  rw [String.intercalate_cons_cons]
  simp [SymbolTable.undotted]

/-- **The three views of a symbol table agree.**  In a table that calls make, with any
registry:

* a line that is an undotted identifier becomes the identifier of what the name means, and
  stays if the name means nothing;
* a line that is a dotted name with an alias becomes the identifier of what it is bound to,
  also where its first part means something by itself;
* the exported names are the undotted names that mean something, each once and with its
  meaning. -/
theorem symbol_views_agree {scope : String} {t : SymbolTable} (made : t.Made scope)
    (registry : Registry) :
    (∀ name, IsWord name → (Renaming.ofTable t registry).rename name =
      ((t.resolve? name).map registry.identifierOf).getD name) ∧
    (∀ name qualified, IsDottedName name → t.seen.find? name = some qualified →
      t.resolve? name = some qualified ∧
        (Renaming.ofTable t registry).rename name = registry.identifierOf qualified) ∧
    (t.exported.map Prod.fst).Nodup ∧
    ∀ name qualified, (name, qualified) ∈ t.exported ↔
      SymbolTable.undotted name = true ∧ t.resolve? name = some qualified := by
  have sorted : Sorted (ofTable t registry).rules := sorted_ofPairs _
  refine ⟨fun name word => ?_, fun name qualified dotted bound => ?_,
    made.sorted.exported_nodup, fun name qualified => made.mem_exported_iff⟩
  · have image := image?_ofTable t registry word.nonempty
    cases means : t.resolve? name with
    | none =>
        rw [means] at image
        exact rename_of_isWord word image
    | some qualified =>
        rw [means] at image
        exact rename_of_image? sorted word.isKey image
  · have means : t.resolve? name = some qualified :=
      (made.resolve?_of_dotted dotted.undotted_eq_false).trans bound
    have nonempty : name ≠ "" := fun empty =>
      dotted.isKey.ne_nil (String.toList_eq_nil_iff.mpr empty)
    have image := image?_ofTable t registry nonempty
    rw [means] at image
    exact ⟨means, rename_of_image? sorted dotted.isKey image⟩

/-- An alias that a later declaration shadows, and a dotted alias, bound twice, whose first part
is that name. -/
def shadowedTable : SymbolTable :=
  ((((({} : SymbolTable).bind "a" "lib.a").bind "a.b" "old.b").declare "main" "a").bind
    "a.b" "lib.b").bind "c" "lib.c"

theorem symbol_views_agree_shadowedTable :
    shadowedTable.Made "main" ∧ IsWord "a" ∧ IsWord "z" ∧ IsDottedName "a.b" ∧
    ∀ registry : Registry,
      (Renaming.ofTable shadowedTable registry).rename "a" = registry.identifierOf "main.a" ∧
      (Renaming.ofTable shadowedTable registry).rename "z" = "z" ∧
      (Renaming.ofTable shadowedTable registry).rename "a.b" = registry.identifierOf "lib.b" ∧
      ("a", "main.a") ∈ shadowedTable.exported ∧ ("c", "lib.c") ∈ shadowedTable.exported ∧
      ("a", "lib.a") ∉ shadowedTable.exported ∧ ("a.b", "lib.b") ∉ shadowedTable.exported := by
  have made : shadowedTable.Made "main" :=
    ((((SymbolTable.Made.empty.bind "a" "lib.a").bind "a.b" "old.b").declare (by decide)).bind
      "a.b" "lib.b").bind "c" "lib.c"
  have a : IsWord "a" := by decide
  have z : IsWord "z" := by decide
  have dotted : IsDottedName "a.b" := by
    refine ⟨["a", "b"], by decide, fun part member => ?_, by decide⟩
    rcases List.mem_cons.mp member with rfl | later
    · exact a
    · rw [List.mem_singleton.mp later]
      decide
  refine ⟨made, a, z, dotted, fun registry => ?_⟩
  obtain ⟨words, dottedNames, -, exported⟩ := symbol_views_agree made registry
  refine ⟨words "a" a, words "z" z, (dottedNames "a.b" "lib.b" dotted (by decide)).2,
    (exported _ _).mpr (by decide), (exported _ _).mpr (by decide),
    fun out => ?_, fun out => ?_⟩
  · exact absurd ((exported _ _).mp out).2 (by decide)
  · exact absurd ((exported _ _).mp out).1 (by decide)

end Amalgam
