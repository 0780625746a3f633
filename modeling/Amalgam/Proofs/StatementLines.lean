import Amalgam.Proofs.SourceLines
import Amalgam.Statement

/-!
# Statements and the lines they come from

Grouping lines into statements loses no line, repeats none and changes no order.  What a
reader has given out so far and what it holds back make up the lines it was fed: a line
goes behind those that are held back, and either stays there or comes out together with
all of them.

`Tiles` says of statements that they cover lines piece by piece: a line of code is one
line, with its number and what the lexer found in it, and an import is a run of one or
more, with the number of the first.  What the lexer finds depends on the lines before; it
runs over held-back lines as over any other, so all statements show one run of it.

## Main statements

* `Reader.feed_tiles` — one line fed
* `Reader.readFrom_tiles` — all lines of a file
* `statements_keep_source`
-/

namespace Amalgam

/-- A line, and what the lexer found in it. -/
abbrev FoundLine := List Char × LexedLine

/-! ### Tilings -/

/-- **Statements that cover lines piece by piece**; the first line has number `n`. -/
inductive Tiles : Nat → List FoundLine → List Statement → Prop where
  | nil (n : Nat) : Tiles n [] []
  | code {n : Nat} {rest : List FoundLine} {later : List Statement} (found : FoundLine)
      (tiles : Tiles (n + 1) rest later) :
      Tiles n (found :: rest) (.code n found.1 found.2 :: later)
  | imports {n : Nat} {rest : List FoundLine} {later : List Statement} (run : List FoundLine)
      (forms : List ImportForm) (topLevel : Bool) (nonempty : run ≠ [])
      (tiles : Tiles (n + run.length) rest later) :
      Tiles n (run ++ rest) (.imports n (run.map Prod.fst) forms topLevel :: later)

namespace Tiles

/-- Tilings of neighbouring stretches make one. -/
theorem append {n : Nat} {xs ys : List FoundLine} {first second : List Statement}
    (left : Tiles n xs first) (right : Tiles (n + xs.length) ys second) :
    Tiles n (xs ++ ys) (first ++ second) := by
  induction left with
  | nil n => exact right
  | @code n rest later found _ ih =>
      refine .code found (ih ?_)
      rw [List.length_cons] at right
      rwa [Nat.add_right_comm]
  | @imports n rest later run forms topLevel nonempty _ ih =>
      rw [List.append_assoc]
      refine .imports run forms topLevel nonempty (ih ?_)
      rwa [List.length_append, ← Nat.add_assoc] at right

theorem codeFrom (n : Nat) (lines : List FoundLine) : Tiles n lines (Pending.codeFrom n lines) := by
  induction lines generalizing n with
  | nil => exact .nil n
  | cons found rest ih => exact .code found (ih (n + 1))

/-- The lines of the statements are the lines. -/
theorem flatMap_lines {n : Nat} {lines : List FoundLine} {given : List Statement}
    (tiles : Tiles n lines given) : given.flatMap Statement.lines = lines.map Prod.fst := by
  induction tiles with
  | nil => rfl
  | code found _ ih => simp [Statement.lines, ih]
  | imports run _ _ _ _ ih => simp [Statement.lines, ih]

end Tiles

/-- **What a statement shows stands at its place**, behind the first `k` lines of a file:
its number, counted from one, its own lines, and for a line of code what the lexer found
in it. -/
def Statement.StandsAt (lines : List (List Char)) (lexed : List LexedLine) (k : Nat) :
    Statement → Prop
  | .code number line found => number = k + 1 ∧ lines[k]? = some line ∧ lexed[k]? = some found
  | .imports number own _ _ => number = k + 1 ∧ own ≠ [] ∧ own <+: lines.drop k

/-- Every statement of a tiling shows what stands behind the lines of the statements before
it. -/
theorem Tiles.standsAt (skipped : List FoundLine) {n : Nat} {found : List FoundLine}
    {before after : List Statement} {s : Statement} (tiles : Tiles n found (before ++ s :: after))
    (start : n = skipped.length + 1) :
    s.StandsAt ((skipped ++ found).map Prod.fst) ((skipped ++ found).map Prod.snd)
      (skipped.length + (before.flatMap Statement.lines).length) := by
  induction before generalizing n found skipped with
  | nil =>
      cases tiles with
      | code line _ => exact ⟨start, by simp, by simp⟩
      | imports run forms topLevel nonempty _ =>
          refine ⟨start, by simpa using nonempty, ?_⟩
          simp
  | cons first before ih =>
      -- the lines of the first statement are skipped next
      cases tiles with
      | code line tiles =>
          have next := ih (skipped ++ [line]) tiles (by simp [start])
          simpa [Statement.lines, Nat.add_assoc, Nat.add_comm 1] using next
      | imports run forms topLevel _ tiles =>
          have next := ih (skipped ++ run) tiles (by rw [List.length_append, start]; omega)
          simpa [Statement.lines, Nat.add_assoc] using next

/-! ### The reader -/

/-- Closed lines come out as one import, or as code. -/
theorem Pending.close_tiles (p : Pending) : Tiles p.number p.lines p.close := by
  unfold Pending.close
  split
  next forms _ =>
    have one := Tiles.imports p.lines forms p.first.2.startsAtMargin (List.cons_ne_nil _ _)
      (Tiles.nil (p.number + p.lines.length))
    rwa [List.append_nil] at one
  next => exact .codeFrom p.number p.lines

namespace Reader

/-- The lines that a reader holds back. -/
def held (r : Reader) : List FoundLine :=
  match r.pending with
  | some p => p.lines
  | none => []

/-- The reader holds back the lines from number `start` to before number `n`. -/
structure Holds (r : Reader) (start n : Nat) : Prop where
  number : ∀ p, r.pending = some p → p.number = start
  count : start + r.held.length = n

theorem holds_of_none {r : Reader} (none : r.pending = none) (n : Nat) : r.Holds n n where
  number p some := by
    rw [none] at some
    cases some
  count := by rw [held, none]; rfl

/-- What is held back comes out as code at the end of the file. -/
theorem finish_tiles {r : Reader} {start n : Nat} (holds : r.Holds start n) :
    Tiles start r.held r.finish := by
  unfold held finish
  cases waiting : r.pending with
  | none => exact .nil start
  | some p =>
      rw [← holds.number p waiting]
      exact .codeFrom p.number p.lines

/-- **One line fed** goes behind the lines that are held back, and either stays there or
comes out with all of them. -/
theorem feed_tiles {r : Reader} {start n : Nat} (holds : r.Holds start n) (line : List Char) :
    let found : FoundLine := (line, (lexFrom r.state line).1)
    (r.feed n line).1.state = (lexFrom r.state line).2 ∧
      ((r.feed n line).2 = [] ∧ (r.feed n line).1.held = r.held ++ [found] ∧
          (r.feed n line).1.Holds start (n + 1) ∨
        (r.feed n line).1.pending = none ∧ Tiles start (r.held ++ [found]) (r.feed n line).2) := by
  intro found
  unfold feed
  dsimp only
  cases waiting : r.pending with
  | some p =>
      have starts := holds.number p waiting
      have count := holds.count
      have before : r.held = p.lines := by rw [held, waiting]
      have longer : ({ p with later := p.later ++ [found] } : Pending).lines = r.held ++ [found] := by
        rw [before]
        rfl
      dsimp only
      split
      · refine ⟨rfl, Or.inr ⟨rfl, ?_⟩⟩
        rw [← longer, ← starts]
        exact Pending.close_tiles { p with later := p.later ++ [found] }
      · refine ⟨rfl, Or.inl ⟨rfl, longer, ?_, ?_⟩⟩
        · intro q same
          cases same
          exact starts
        · have length := congrArg List.length longer
          rw [List.length_append, List.length_singleton] at length
          change start + ({ p with later := p.later ++ [found] } : Pending).lines.length = n + 1
          omega
  | none =>
      have empty : r.held = [] := by rw [held, waiting]
      have fresh : start = n := by
        have count := holds.count
        rwa [empty, List.length_nil, Nat.add_zero] at count
      rw [empty, fresh, List.nil_append]
      have code : Tiles n [found] [.code n line (lexFrom r.state line).1] := .code found (.nil _)
      dsimp only
      split
      · exact ⟨rfl, Or.inr ⟨rfl, code⟩⟩
      · split
        next forms _ =>
          exact ⟨rfl, Or.inr ⟨rfl, .imports [found] forms _ (List.cons_ne_nil _ _) (.nil _)⟩⟩
        next =>
          split
          · refine ⟨rfl, Or.inl ⟨rfl, rfl, ?_, rfl⟩⟩
            intro q same
            cases same
            rfl
          · exact ⟨rfl, Or.inr ⟨rfl, code⟩⟩

/-- **All lines of a file**, those held back first, come out as a tiling. -/
theorem readFrom_tiles {r : Reader} {start n : Nat} (holds : r.Holds start n)
    (lines : List (List Char)) :
    Tiles start (r.held ++ lines.zip (lexAll r.state lines)) (r.readFrom n lines) := by
  induction lines generalizing r start n with
  | nil =>
      rw [List.zip_nil_left, List.append_nil]
      exact finish_tiles holds
  | cons line rest ih =>
      rw [readFrom, lexAll, List.zip_cons_cons]
      obtain ⟨state, ⟨nothing, longer, holds'⟩ | ⟨none, out⟩⟩ := feed_tiles holds line
      · have later := ih holds'
        rw [longer, state, List.append_assoc] at later
        rw [nothing]
        exact later
      · have later := ih (holds_of_none none (n + 1))
        rw [state, held, none, List.nil_append] at later
        rw [List.append_cons]
        refine out.append ?_
        rw [List.length_append, ← Nat.add_assoc, holds.count]
        exact later

end Reader

theorem length_lexAll (state : Option Quote) (lines : List (List Char)) :
    (lexAll state lines).length = lines.length := by
  induction lines generalizing state with
  | nil => rfl
  | cons line rest ih => simp [lexAll, ih]

/-- **Grouping a source into statements keeps its text.**  The lines of the statements are
the lines of the source in order, so together they are the source without a newline at its
end.  Behind the lines of the statements before it, every statement stands at its place: it
has the number of its first line; a line of code has what one run of the lexer over the
file finds there; and an import has a run of one or more lines. -/
theorem statements_keep_source (source : List Char) :
    (statements source).flatMap Statement.lines = sourceLines source ∧
    joinWith '\n' ((statements source).flatMap Statement.lines) = dropFinalNewline source ∧
    ∀ before s after, statements source = before ++ s :: after →
      s.StandsAt (sourceLines source) (lexAll none (sourceLines source))
        (before.flatMap Statement.lines).length := by
  have begins : Reader.Holds {} 1 1 := Reader.holds_of_none rfl 1
  have tiles : Tiles 1 ((sourceLines source).zip (lexAll none (sourceLines source)))
      (statements source) := Reader.readFrom_tiles begins (sourceLines source)
  have length := length_lexAll none (sourceLines source)
  have lines : ((sourceLines source).zip (lexAll none (sourceLines source))).map Prod.fst =
      sourceLines source := List.map_fst_zip (Nat.le_of_eq length.symm)
  have lexed : ((sourceLines source).zip (lexAll none (sourceLines source))).map Prod.snd =
      lexAll none (sourceLines source) := List.map_snd_zip (Nat.le_of_eq length)
  have same : (statements source).flatMap Statement.lines = sourceLines source :=
    tiles.flatMap_lines.trans lines
  refine ⟨same, ?_, fun before s after split => ?_⟩
  · rw [same, joinWith_sourceLines]
  · rw [split] at tiles
    have stands := tiles.standsAt [] rfl
    rw [List.nil_append, lines, lexed, List.length_nil, Nat.zero_add] at stands
    exact stands

/-- An import that spreads over three lines, and a line of code. -/
def nameListSource : List Char :=
  "from a import (\n    b,  # (\n)\nb()\n".toList

/-- The line of code stands behind the three lines of the import. -/
theorem statements_keep_source_nameListSource :
    ∃ first second, statements nameListSource = [first, second] ∧ first.lines.length = 3 ∧
      second.StandsAt (sourceLines nameListSource) (lexAll none (sourceLines nameListSource)) 3 := by
  have computed : (statements nameListSource).map (fun s => s.lines.length) = [3, 1] := by
    decide +kernel
  obtain ⟨first, rest, split, three, more⟩ := List.map_eq_cons_iff.mp computed
  obtain ⟨second, behind, rfl, -, nothing⟩ := List.map_eq_cons_iff.mp more
  cases List.map_eq_nil_iff.mp nothing
  obtain ⟨-, -, stands⟩ := statements_keep_source nameListSource
  refine ⟨first, second, split, three, ?_⟩
  rw [← three]
  simpa using stands [first] second [] split

end Amalgam
