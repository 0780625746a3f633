import Amalgam.Combined
import Amalgam.Proofs.DeclaredNames
import Amalgam.Proofs.FutureDirectives
import Amalgam.Proofs.NameEdges
import Amalgam.Proofs.TableKeys

/-!
# Declarations are renamed where they stand

A declaration is found on tokens, and renamed by a search for keys between characters that no
name goes on across.  The two agree as far as they see the same names.  In front of a declared
name they always do.  Behind it there may be a letter that only the search takes for one, and
then the declared name is no whole identifier and stays as it is; or a dot and a name, so that
a longer key is renamed in its place.  Both only happen behind `class` and `def`, since the
target of an assignment is followed by a mark.

Three things have to be known to see that nothing else is in the way: the module declares the
name once its file is scanned (`Encounter.records`), the names it knows are keys
(`Encounter.keyed`), and a line that declares a name is in no class body
(`writeStatement_of_mem_declaredTokens`).

## Main statements

* `Renaming.splice_append` — a swap in the middle of a line
* `Renaming.renamesAt_iff`, `Renaming.not_overruns_of_startsAfter`
* `combine_writes` — where the text of a statement stands
* `declaration_renamed_iff`
-/

namespace Amalgam

namespace Renaming

/-! ### One swap -/

/-- **A swap cuts a line in three**: what is left of its key, the replacement, and what is
right of it. -/
theorem splice_append {earlier later : List Swap} {word : List Char} :
    ∀ {pos : Nat} {front name rear : List Char}, (∀ s ∈ earlier, pos ≤ s.start) →
      (earlier ++ ⟨pos + front.length, ⟨name, word⟩⟩ :: later).Pairwise
        (fun s t => s.stop ≤ t.start) →
      splice pos (front ++ (name ++ rear))
          (earlier ++ ⟨pos + front.length, ⟨name, word⟩⟩ :: later) =
        splice pos front earlier ++ word ++
          splice (pos + front.length + name.length) rear later := by
  induction earlier with
  | nil =>
      intro pos front name rear _ _
      have stop : pos + front.length + name.length - pos = front.length + name.length := by omega
      rw [List.nil_append, splice, splice, Swap.stop]
      dsimp only
      rw [Nat.add_sub_cancel_left, List.take_left, stop, ← List.append_assoc,
        ← List.length_append, List.drop_left]
  | cons s earlier ih =>
      intro pos front name rear ahead ordered
      rw [List.cons_append, List.pairwise_cons] at ordered
      obtain ⟨behind, ordered⟩ := ordered
      have start := ahead s List.mem_cons_self
      have inside : s.stop ≤ pos + front.length :=
        behind ⟨pos + front.length, ⟨name, word⟩⟩ (by simp)
      have width : s.start ≤ s.stop := Nat.le_add_right _ _
      have place : s.stop + (front.drop (s.stop - pos)).length = pos + front.length := by
        rw [List.length_drop]
        omega
      rw [← place] at ordered
      have rest := @ih s.stop (front.drop (s.stop - pos)) name rear
        (fun t member => behind t (List.mem_append_left _ member)) ordered
      rw [place] at rest
      rw [List.cons_append, splice, splice, List.take_append_of_le_length (by omega),
        List.drop_append_of_le_length (by omega), rest]
      simp only [List.append_assoc]

/-- **A longer key than the name fits where the name stands.** -/
def Overruns (r : Renaming) (segs : List Segment) (start : Nat) (name : List Char) : Prop :=
  ∃ rule ∈ r.rules, ∃ place : CodePlace segs,
    place.start = start ∧ place.Fits [] rule.key ∧ name.length < rule.key.length

/-- **The name between `front` and `rear` is renamed where it stands**: no identifier character
is beside it, and what is written is the front and the rear, renamed, with `word` between
them. -/
structure RenamesAt (r : Renaming) (segs : List Segment)
    (front name rear word written : List Char) : Prop where
  left : ∀ c ∈ front.getLast?, isIdentChar c = false
  right : ∀ c ∈ rear.head?, isIdentChar c = false
  swapped : ∃ earlier later,
    (∀ s, s ∈ earlier ++ ⟨front.length, ⟨name, word⟩⟩ :: later ↔ s.Chosen r.rules [] segs) ∧
    written = splice 0 front earlier ++ word ++ splice (front.length + name.length) rear later

/-- Where a name can start, one can end. -/
theorem endsBefore_of_startsAfter {next : Option Char} (apart : startsAfter next = true) :
    endsBefore next = true := by
  cases next with
  | none => rfl
  | some c =>
      rw [startsAfter, Bool.and_eq_true] at apart
      exact apart.1

theorem endsBefore_iff {next : Option Char} :
    endsBefore next = true ↔ ∀ c ∈ next, isIdentChar c = false := by
  cases next with
  | none => simp [endsBefore]
  | some c => simp [endsBefore]

section Places

variable {r : Renaming} {segs : List Segment} {name rear word : List Char}
  (named : ∀ rule ∈ r.rules, IsKey rule.key) (known : ⟨name, word⟩ ∈ r.rules)
  (place : CodePlace segs) (inside : name <+: place.rest)
  (text : Segment.textOf segs = place.passed ++ name ++ rear)

include inside text

/-- What stands behind the name, in its segment and after it. -/
theorem rear_eq : place.rest.drop name.length ++ Segment.textOf place.rear = rear := by
  obtain ⟨more, rest⟩ := inside
  have whole := place.textOf_eq
  rw [text, List.append_assoc, List.append_right_inj, ← rest, List.append_assoc,
    List.append_right_inj] at whole
  rw [← rest, List.drop_left, whole]

include named known

/-- **A name is renamed where it stands** exactly if it is a whole identifier and no longer key
fits there. -/
theorem renamesAt_iff (sorted : Sorted r.rules)
    (begins : startsAfter place.passed.getLast? = true) :
    r.RenamesAt segs place.passed name rear word (r.segments [] 0 none segs) ↔
      endsBefore rear.head? = true ∧ ¬ r.Overruns segs place.start name := by
  constructor
  · rintro ⟨-, right, earlier, later, chosen, -⟩
    refine ⟨endsBefore_iff.mpr right, ?_⟩
    rintro ⟨rule, member, other, here, fits, longer⟩
    obtain ⟨-, own, there, fits', longest⟩ :=
      (chosen ⟨place.passed.length, ⟨name, word⟩⟩).mp (by simp)
    obtain rfl : other = own := CodePlace.eq_of_start (fits.rest_ne_nil (named _ member))
      (fits'.rest_ne_nil (named _ known)) (here.trans there.symm)
    exact absurd (longest rule member fits) (Nat.not_le.mpr longer)
  · rintro ⟨ends, alone⟩
    have fits : place.Fits [] name := by
      refine ⟨inside, List.not_mem_nil, begins, ?_⟩
      rw [rear_eq place inside text]
      exact ends
    have isChosen : Swap.Chosen r.rules [] segs ⟨place.start, ⟨name, word⟩⟩ := by
      refine ⟨known, place, rfl, fits, fun other member fits' => ?_⟩
      by_contra longer
      exact alone ⟨other, member, place, rfl, fits', Nat.not_le.mp longer⟩
    obtain ⟨swaps, chosen, ordered, made⟩ : Renders r.rules [] segs 0 (Segment.textOf segs)
        (r.segments [] 0 none segs) := segments_renders sorted named segs [] rfl
    simp only [Nat.zero_le, and_true] at chosen
    obtain ⟨earlier, later, rfl⟩ := List.append_of_mem ((chosen _).mpr isChosen)
    refine ⟨endsBefore_iff.mp (endsBefore_of_startsAfter begins), endsBefore_iff.mp ends,
      earlier, later, chosen, ?_⟩
    have cut := @splice_append earlier later word 0 place.passed name rear
      (fun _ _ => Nat.zero_le _)
    rw [Nat.zero_add] at cut
    rw [made, text, List.append_assoc]
    exact cut ordered

/-- **No longer key fits where no name goes on.** -/
theorem not_overruns_of_startsAfter (apart : startsAfter rear.head? = true) :
    ¬ r.Overruns segs place.start name := by
  rintro ⟨rule, member, other, here, fits, longer⟩
  have some : place.rest ≠ [] := by
    intro empty
    rw [empty, List.prefix_nil] at inside
    exact (named _ known).ne_nil inside
  obtain rfl : other = place :=
    CodePlace.eq_of_start (fits.rest_ne_nil (named _ member)) some here
  obtain ⟨more, key⟩ := List.prefix_of_prefix_length_le inside fits.inside longer.le
  obtain ⟨c, cs, rfl⟩ : ∃ c cs, more = c :: cs := by
    refine List.exists_cons_of_ne_nil fun empty => ?_
    rw [empty, List.append_nil] at key
    exact absurd longer (by rw [key]; exact Nat.lt_irrefl _)
  -- the key goes on with the character behind the name
  have next : rear.head? = Option.some c := by
    obtain ⟨rest, whole⟩ := fits.inside
    rw [← rear_eq other inside text, ← whole, ← key, List.append_assoc, List.drop_left]
    rfl
  rw [next, (named rule member).startsAfter_eq_false (by rw [← key]; simp)] at apart
  cases apart

end Places

end Renaming

open Renaming

/-! ### Where statements are written -/

/-- A line in the first column is in no class body. -/
theorem ClassBlock.enter_of_margin {line : List Char} (margin : indentOf line = 0)
    (blocks : List ClassBlock) (opensClass : Bool) : (enter blocks line opensClass).2 = false := by
  have closed : (blocks.dropWhile fun block => 0 ≤ block.indent) = [] :=
    List.dropWhile_eq_nil_iff.mpr fun block _ => decide_eq_true (Nat.zero_le block.indent)
  have outside : (settle 0 blocks).2 = false := by
    unfold settle
    rw [closed]
  unfold enter
  split
  · rfl
  · rw [margin]
    exact outside

theorem mem_definedTokens_of_declared {lexed : LexedLine} {t : Token}
    (declared : t ∈ declaredTokens lexed) : t ∈ definedTokens lexed := by
  unfold declaredTokens at declared
  split at declared
  · exact (List.mem_filter.mp declared).1
  · cases declared

/-- A line that declares a name starts outside any string. -/
theorem lexFrom_of_mem_declaredTokens {state : Option Quote} {line : List Char} {t : Token}
    (declared : t ∈ declaredTokens (lexFrom state line).1) :
    (lexFrom state line).1 = lexFresh line := by
  cases state with
  | none => rfl
  | some quote =>
      have defined := mem_definedTokens_of_declared declared
      have inString : (lexFrom (some quote) line).1.startsInString = true := rfl
      rw [definedTokens, if_pos inString] at defined
      cases defined

/-- **A line that declares a name is renamed all through.** -/
theorem writeStatement_of_mem_declaredTokens {line : List Char} {t : Token}
    (declared : t ∈ declaredTokens (lexFresh line)) (rules : Renaming) (externals : List String)
    (blocks : List ClassBlock) (number : Nat) :
    (writeStatement rules externals blocks (.code number line (lexFresh line))).2 =
      endLine (rules.line [] (lexFresh line)) := by
  have outside := ClassBlock.enter_of_margin (indentOf_eq_zero_of_mem_declaredTokens declared)
    blocks ((lexFresh line).first? == some .classWord)
  rw [writeStatement, if_neg (by simp [lexFresh, lexFrom])]
  dsimp only
  rw [outside, writeCode, if_neg Bool.false_ne_true]

theorem writeStatements_cons (rules : Renaming) (externals : List String)
    (blocks : List ClassBlock) (s : Statement) (rest : List Statement) :
    writeStatements rules externals blocks (s :: rest) =
      (writeStatement rules externals blocks s).2 ++
        writeStatements rules externals (writeStatement rules externals blocks s).1 rest := rfl

/-- A statement is written behind those before it. -/
theorem exists_writeStatements_append (rules : Renaming) (externals : List String)
    (before : List Statement) (s : Statement) (after : List Statement) :
    ∀ blocks, ∃ now below, writeStatements rules externals blocks (before ++ s :: after) =
      writeStatements rules externals blocks before ++
        (writeStatement rules externals now s).2 ++ below := by
  induction before with
  | nil => exact fun blocks => ⟨blocks, _, rfl⟩
  | cons first before ih =>
      intro blocks
      obtain ⟨now, below, rest⟩ := ih (writeStatement rules externals blocks first).1
      refine ⟨now, below, ?_⟩
      rw [List.cons_append, writeStatements_cons, writeStatements_cons, rest]
      simp only [List.append_assoc]

/-- A module in the order is written. -/
theorem Build.exists_write_eq {b : Build} {i : Nat} {m : Module} (inOrder : i ∈ b.emissionOrder)
    (here : b.graph.module? i = some m) :
    ∃ above below, b.write = above ++ writeModule b m ++ below := by
  obtain ⟨first, last, order⟩ := List.append_of_mem inOrder
  rw [write, order, List.flatMap_append, List.flatMap_cons, here, ← List.append_assoc,
    ← List.append_assoc]
  exact ⟨_, _, rfl⟩

/-- **The line that a program has for a statement of module `m`**: it comes after the comment
above the module and the text of the statements before. -/
def Combined.Writes (c : Combined) (m : Module) (before : List Statement) (line : List Char) :
    Prop :=
  ∃ above below, c.source.toList = above ++ endLine (moduleComment m) ++
    writeStatements (.ofTable m.symbols c.build.registry) c.build.externals [] before ++
    endLine line ++ below

section Combining

variable {tree : FileTree} {entry : Path} {table : SearchTable} {wildcard : WildcardPolicy}
  {cycles : CyclePolicy} {diagnostics : List Diagnostic} {combined : Combined}
  (built : combine tree entry { table, wildcard, cycles, diagnostics } = .ok combined)

include built

/-- The scan behind a combined program. -/
theorem combine_scanned :
    ∃ scanned, Encounter tree entry { table, wildcard, cycles, diagnostics } ⟨scanned, []⟩ ∧
      (∀ i, combined.build.graph.module? i = scanned.graph.module? i) ∧
      combined.build.registry = scanned.registry ∧
      ∀ i m, scanned.graph.module? i = some m → i ∈ combined.build.emissionOrder := by
  obtain ⟨id, scanned, scan, ended, -⟩ := combine_finished built
  obtain ⟨order, ordered, graph, -, -, emission⟩ := Build.finish_eq_ok ended
  obtain ⟨b₁, tasks, entered, leads⟩ := scanPath_ok_encounter scan
  have ends : Encounter tree entry { table, wildcard, cycles, diagnostics } ⟨scanned, []⟩ :=
    ⟨b₁, id, tasks, entered, leads⟩
  have valid := (ends.traced (traced_start tree table wildcard cycles diagnostics)).1.edgesValid
  obtain ⟨-, complete, -⟩ := Graph.order_ok valid ordered
  have registry : scanned.finish.2.registry = scanned.registry := by
    unfold Build.finish
    dsimp only
    split <;> rfl
  rw [ended] at registry
  refine ⟨scanned, ends, fun i => by rw [graph, Graph.module?_link], registry, fun i m here => ?_⟩
  rw [emission]
  refine complete i ?_
  rw [Graph.length_nodes_link]
  exact Graph.module?_isSome_iff.mp (by rw [here]; rfl)

/-- **Every statement of every module is written at its place.** -/
theorem combine_writes {i : Nat} {m : Module} (here : combined.build.graph.module? i = some m)
    {before after : List Statement} {s : Statement}
    (stands : statements m.source.toList = before ++ s :: after) {line : List Char}
    (written : ∀ blocks, (writeStatement (.ofTable m.symbols combined.build.registry)
      combined.build.externals blocks s).2 = endLine line) : combined.Writes m before line := by
  obtain ⟨scanned, -, modules, -, complete⟩ := combine_scanned built
  obtain ⟨-, -, -, -, source⟩ := combine_finished built
  obtain ⟨above, below, text⟩ :=
    Build.exists_write_eq (complete i m (by rw [← modules]; exact here)) here
  obtain ⟨now, later, rest⟩ := exists_writeStatements_append
    (.ofTable m.symbols combined.build.registry) combined.build.externals before s after []
  refine ⟨above, later ++ below, ?_⟩
  rw [source, String.toList_ofList, text, writeModule, stands, rest, written]
  simp only [List.append_assoc]

/-- The rule that a module has for a name that one of its lines declares. -/
theorem rule_of_mem_declaredNames {i : Nat} {m : Module}
    (here : combined.build.graph.module? i = some m) {number : Nat} {line : List Char}
    {lexed : LexedLine} (stands : .code number line lexed ∈ statements m.source.toList)
    {name : String} (declared : name ∈ declaredNames lexed) :
    ⟨name.toList, (combined.build.registry.identifierOf (qualify m.scope name)).toList⟩ ∈
        (Renaming.ofTable m.symbols combined.build.registry).rules ∧
      ∀ rule ∈ (Renaming.ofTable m.symbols combined.build.registry).rules, IsKey rule.key := by
  obtain ⟨scanned, ends, modules, registry, -⟩ := combine_scanned built
  rw [modules] at here
  have named := (ends.wellNamed (wellNamed_start table wildcard cycles diagnostics)).module here
  have keyed : scanned.Keyed := ends.keyed fun i m none => by simp at none
  refine ⟨?_, fun rule => isKey_of_mem_ofTable (keyed i m here)⟩
  have own : m.symbols.own.contains name = true := by
    rcases ends.records rfl i m here number line lexed stands with recorded | ⟨path, waits⟩
    · exact recorded name declared
    · cases waits
  obtain ⟨q, found⟩ := Option.isSome_iff_exists.mp own
  have identifier := named.own_identifier _ (NameMap.mem_entries_of_find? found)
  rw [named.own_find? found] at found
  refine mem_rules_of_image? ?_
  rw [image?_ofTable _ _ identifier.ne_empty, SymbolTable.resolve?_eq, found]
  rfl

/-- **A declaration is renamed where it stands if and only if it is a whole identifier and no
longer key fits there.**  Take any program that was combined, any line of code of any of its
modules, and any name that the line declares.  The name stands in the line at its byte, and
the line of the program for it is the line renamed all through.

* No identifier character is beside the name and it is replaced by the identifier of its
  declaration, if and only if no identifier character follows and no longer key of the module
  fits there.
* This is so for the targets of assignments, and wherever the name is followed neither by an
  identifier character nor by a dot. -/
theorem declaration_renamed_iff {i : Nat} {m : Module}
    (here : combined.build.graph.module? i = some m) {before after : List Statement}
    {number : Nat} {line : List Char} {lexed : LexedLine}
    (stands : statements m.source.toList = before ++ .code number line lexed :: after) {t : Token}
    (declared : t ∈ declaredTokens lexed) :
    ∃ front rear written, line = front ++ t.text.toList ++ rear ∧ byteWidth front = t.start ∧
      combined.Writes m before written ∧
      let rules := Renaming.ofTable m.symbols combined.build.registry
      let word := (combined.build.registry.identifierOf (qualify m.scope t.text)).toList
      (rules.RenamesAt lexed.segments front t.text.toList rear word written ↔
        endsBefore rear.head? = true ∧
          ¬ rules.Overruns lexed.segments front.length t.text.toList) ∧
      (lexed.first? = some .ident ∨ startsAfter rear.head? = true →
        rules.RenamesAt lexed.segments front t.text.toList rear word written) := by
  have member : .code number line lexed ∈ statements m.source.toList := by
    rw [stands]
    simp
  obtain ⟨known, named⟩ := rule_of_mem_declaredNames built here member
    (List.mem_map_of_mem declared)
  obtain ⟨state, rfl⟩ := statements_read _ _ member
  have fresh := lexFrom_of_mem_declaredTokens declared
  rw [fresh] at declared stands ⊢
  have written := combine_writes built here stands fun blocks =>
    writeStatement_of_mem_declaredTokens declared _ _ blocks number
  obtain ⟨place, rear, split, starts, inside, left, right⟩ :=
    exists_place_of_mem_definedTokens (mem_definedTokens_of_declared declared)
  have text := (textOf_lexFresh line).trans split
  have renamed := renamesAt_iff named known place inside text (sorted_ofPairs _) left
  refine ⟨place.passed, rear, _, split, starts, written, renamed, fun apart => renamed.mpr ?_⟩
  have ends : startsAfter rear.head? = true := apart.elim right id
  exact ⟨endsBefore_of_startsAfter ends,
    not_overruns_of_startsAfter named known place inside text ends⟩

end Combining

/-- What is left and right of a name, from the byte at which it starts. -/
theorem eq_take_of_byteWidth {line front name rear : List Char} {start k : Nat}
    (split : line = front ++ name ++ rear) (starts : byteWidth front = start)
    (only : ∀ n < line.length + 1, byteWidth (line.take n) = start → n = k) :
    front = line.take k ∧ rear = line.drop (k + name.length) := by
  have left : line.take front.length = front := by rw [split, List.append_assoc, List.take_left]
  have short : front.length < line.length + 1 := by
    rw [split, List.length_append, List.length_append]
    omega
  obtain rfl := only front.length short (by rw [left]; exact starts)
  refine ⟨left.symm, ?_⟩
  rw [split, ← List.length_append, List.drop_left]

/-- A program with a class whose base is one of three targets of assignments. -/
def classTree : FileTree where
  entries :=
    [(["proj"], .dir),
     (["proj", "main.py"],
       .file (encodeUtf8 "import util\nx, y = z = util.f()\nclass A(x):\n    y = x\n".toList)
         false),
     (["proj", "util.py"], .file (encodeUtf8 "def f():\n    pass\n".toList) false)]
  workdir := ["proj"]

/-- What the directory `proj` offers. -/
def classTable : SearchTable :=
  ⟨[("main", ⟨"/proj/main.py"⟩), ("util", ⟨"/proj/util.py"⟩)]⟩

/-- The line with the class. -/
def classLine : List Char :=
  "class A(x):".toList

/-- The class is renamed where it stands. -/
theorem declaration_renamed_iff_classTree :
    ∃ combined m written,
      combine classTree ⟨"/proj/main.py"⟩ { table := classTable } = .ok combined ∧
      combined.build.graph.module? 0 = some m ∧
      combined.Writes m ((statements m.source.toList).take 2) written ∧
      (Renaming.ofTable m.symbols combined.build.registry).RenamesAt (lexFresh classLine).segments
        "class ".toList "A".toList "(x):".toList "main__A".toList written := by
  have computed : ∃ combined ∈
      (combine classTree ⟨"/proj/main.py"⟩ { table := classTable }).toOption,
      ∃ m ∈ combined.build.graph.module? 0,
        statements m.source.toList = (statements m.source.toList).take 2 ++
          .code 3 classLine (lexFresh classLine) :: (statements m.source.toList).drop 3 ∧
        combined.build.registry.identifierOf (qualify m.scope "A") = "main__A" := by
    decide +kernel
  obtain ⟨combined, given, m, here, stands, word⟩ := computed
  have built := eq_ok_of_mem_toOption given
  have declared : ⟨.ident, 6, "A"⟩ ∈ declaredTokens (lexFresh classLine) := by decide +kernel
  obtain ⟨front, rear, written, split, starts, writes, -, renames⟩ :=
    declaration_renamed_iff built here stands declared
  obtain ⟨rfl, rfl⟩ := @eq_take_of_byteWidth _ _ _ _ _ 6 split starts (by decide +kernel)
  refine ⟨combined, m, written, built, here, writes, ?_⟩
  rw [word] at renames
  exact renames (Or.inr (by decide))

/-- A program with a class whose name has a letter that is not ASCII. -/
def accentTree : FileTree where
  entries :=
    [(["proj"], .dir),
     (["proj", "main.py"], .file (encodeUtf8 "class Café:\n    pass\n".toList) false)]
  workdir := ["proj"]

/-- The line with the class. -/
def accentLine : List Char :=
  "class Café:".toList

/-- **A class is declared under a part of its name**, and not renamed. -/
theorem not_renamed_accentTree :
    ∃ combined m, combine accentTree ⟨"/proj/main.py"⟩ {} = .ok combined ∧
      combined.build.graph.module? 0 = some m ∧
      .code 1 accentLine (lexFresh accentLine) ∈ statements m.source.toList ∧
      (⟨.ident, 6, "Caf"⟩ : Token) ∈ declaredTokens (lexFresh accentLine) ∧
      combined.source = "# coiler: main (main.py)\nclass Café:\n    pass\n" ∧
      ∀ front rear word written, accentLine = front ++ "Caf".toList ++ rear → byteWidth front = 6 →
        ¬ (Renaming.ofTable m.symbols combined.build.registry).RenamesAt
          (lexFresh accentLine).segments front "Caf".toList rear word written := by
  have computed : ∃ combined ∈ (combine accentTree ⟨"/proj/main.py"⟩ {}).toOption,
      ∃ m ∈ combined.build.graph.module? 0,
        .code 1 accentLine (lexFresh accentLine) ∈ statements m.source.toList ∧
        combined.source = "# coiler: main (main.py)\nclass Café:\n    pass\n" := by
    decide +kernel
  obtain ⟨combined, given, m, here, stands, source⟩ := computed
  refine ⟨combined, m, eq_ok_of_mem_toOption given, here, stands, by decide +kernel, source, ?_⟩
  intro front rear word written split starts renamed
  obtain ⟨-, rfl⟩ := @eq_take_of_byteWidth _ _ _ _ _ 6 split starts (by decide +kernel)
  have whole := renamed.right 'é' (by decide +kernel)
  exact absurd whole (by decide +kernel)

end Amalgam
