import Amalgam.Declaration
import Amalgam.Proofs.ImportGrammar
import Amalgam.Proofs.TokenPlaces

/-!
# The grammar of declarations

What a line defines is found by a scan from left to right, which remembers the names read since
the last assignment sign and whether a name may come next.  Here is the grammar that it
recognises.  A line defines the name behind `class`, `def` or `async def`; or else the target of
an annotated assignment; or else the names of all groups `a, b, c =` that it starts with.

How many groups there are is decided at their signs: a group ends with the first sign in it, so
no group is the beginning of another, and whatever groups a line starts with are the first ones
of the longest chain (`exists_leadingGroups`).  The scan takes them one by one
(`assignedFrom_group`) and stops where none is left (`exists_group_of_assignedFrom`).

## Main statements

* `Headed`, `Annotated`, `IsGroup`, `LeadingGroups`, `Defines` — the grammar
* `assignedFrom_group`, `exists_group_of_assignedFrom` — one group
* `exists_leadingGroups` — all groups
* `definedTokens_eq_iff_defines`
-/

namespace Amalgam

/-! ### The grammar -/

/-- `class ident`, `def ident` or `async def ident`, and the name. -/
def Headed (tokens : List Token) (name : Token) : Prop :=
  ∃ words rest, tokens = words ++ name :: rest ∧ name.kind = .ident ∧
    words.map Token.kind ∈ [[.classWord], [.defWord], [.asyncWord, .defWord]]

/-- `ident : rest`, where the rest has an assignment sign; and the identifier. -/
def Annotated (tokens : List Token) (name : Token) : Prop :=
  ∃ colon rest, tokens = name :: colon :: rest ∧ name.kind = .ident ∧ colon.kind = .colon ∧
    .assign ∈ rest.map Token.kind

/-- **A group of targets**: `ident (, ident)* [,] =` -/
def IsGroup (group : List Token) : Prop :=
  ∃ list names trailing sign, SepBy .comma Named list names ∧ OptionalComma trailing ∧
    group.map Token.word = list ++ trailing ++ [(.assign, sign)]

/-- The tokens start with the groups. -/
def StartsWithGroups (tokens : List Token) (groups : List (List Token)) : Prop :=
  (∀ group ∈ groups, IsGroup group) ∧ groups.flatten <+: tokens

/-- **The tokens start with the groups**, and with no more than these many. -/
def LeadingGroups (tokens : List Token) (groups : List (List Token)) : Prop :=
  StartsWithGroups tokens groups ∧
    ∀ others, StartsWithGroups tokens others → others.length ≤ groups.length

/-- The identifiers among tokens. -/
def identsOf (tokens : List Token) : List Token :=
  tokens.filter fun t => t.kind = .ident

/-- **The names that tokens define.**  Each rule applies where those before it do not. -/
inductive Defines (tokens : List Token) : List Token → Prop where
  | headed {name : Token} (head : Headed tokens name) : Defines tokens [name]
  | annotated {name : Token} (noHead : ∀ t, ¬ Headed tokens t) (target : Annotated tokens name) :
      Defines tokens [name]
  | assigned {groups : List (List Token)} (noHead : ∀ t, ¬ Headed tokens t)
      (noTarget : ∀ t, ¬ Annotated tokens t) (leading : LeadingGroups tokens groups) :
      Defines tokens (identsOf groups.flatten)

/-! ### One group -/

theorem identsOf_append (first second : List Token) :
    identsOf (first ++ second) = identsOf first ++ identsOf second := List.filter_append ..

/-- The identifiers of a list with commas are taken. -/
theorem assignedFrom_list {list : List Token} {names : List String}
    (listed : SepBy .comma Named (list.map Token.word) names) (group rest : List Token) :
    assignedFrom group true (list ++ rest) = assignedFrom (group ++ identsOf list) false rest := by
  generalize words : list.map Token.word = ws at listed
  induction listed generalizing list group with
  | one named =>
      cases named
      obtain ⟨start, others, rfl, nothing⟩ := exists_of_map_word_eq_cons words
      cases List.map_eq_nil_iff.mp nothing
      rfl
  | more named mark _ ih =>
      cases named
      obtain ⟨start, behind, rfl, words'⟩ := exists_of_map_word_eq_cons words
      obtain ⟨place, others, rfl, words''⟩ := exists_of_map_word_eq_cons words'
      change assignedFrom (group ++ [_]) true (others ++ rest) = _
      rw [ih _ words'', List.append_assoc]
      rfl

theorem SepBy.identsOf_ne_nil {list : List Token} {names : List String}
    (listed : SepBy .comma Named (list.map Token.word) names) : identsOf list ≠ [] := by
  generalize words : list.map Token.word = ws at listed
  cases listed with
  | one named =>
      cases named
      obtain ⟨start, others, rfl, -⟩ := exists_of_map_word_eq_cons words
      exact List.cons_ne_nil _ _
  | more named =>
      cases named
      obtain ⟨start, others, rfl, -⟩ := exists_of_map_word_eq_cons words
      exact List.cons_ne_nil _ _

/-- A group in tokens: a list, perhaps a comma, and the sign. -/
theorem IsGroup.exists_tokens {group : List Token} (isGroup : IsGroup group) :
    ∃ list names trailing sign, group = list ++ (trailing ++ [sign]) ∧
      SepBy .comma Named (list.map Token.word) names ∧
      OptionalComma (trailing.map Token.word) ∧ sign.kind = .assign := by
  obtain ⟨ws, names, vs, mark, listed, optional, words⟩ := isGroup
  obtain ⟨front, last, rfl, early, words'⟩ := List.map_eq_append_iff.mp words
  obtain ⟨list, trailing, rfl, rfl, rfl⟩ := List.map_eq_append_iff.mp early
  obtain ⟨start, others, rfl, nothing⟩ := exists_of_map_word_eq_cons words'
  cases List.map_eq_nil_iff.mp nothing
  exact ⟨list, names, trailing, _, List.append_assoc .., listed, optional, rfl⟩

/-- A sign ends a group that has a name. -/
theorem assignedFrom_sign {group : List Token} (some : group ≠ []) (nameNext : Bool) (start : Nat)
    (text : String) (rest : List Token) :
    assignedFrom group nameNext (⟨.assign, start, text⟩ :: rest) =
      group ++ assignedFrom [] true rest := if_neg some

/-- **A group is taken whole**, and the scan starts anew behind it. -/
theorem assignedFrom_group {group : List Token} (isGroup : IsGroup group) (rest : List Token) :
    assignedFrom [] true (group ++ rest) = identsOf group ++ assignedFrom [] true rest := by
  obtain ⟨list, names, trailing, ⟨kind, start, text⟩, rfl, listed, optional, same⟩ :=
    isGroup.exists_tokens
  change kind = .assign at same
  subst same
  have some := listed.identsOf_ne_nil
  rw [List.append_assoc, assignedFrom_list listed, List.nil_append, identsOf_append]
  generalize words : trailing.map Token.word = ws at optional
  cases optional with
  | none =>
      cases List.map_eq_nil_iff.mp words
      have own : identsOf ([] ++ [⟨.assign, start, text⟩]) = [] := rfl
      rw [own, List.append_nil]
      exact assignedFrom_sign some false start text rest
  | comma mark =>
      obtain ⟨place, others, rfl, nothing⟩ := exists_of_map_word_eq_cons words
      cases List.map_eq_nil_iff.mp nothing
      have own : identsOf ([⟨.comma, place, mark⟩] ++ [⟨.assign, start, text⟩]) = [] := rfl
      rw [own, List.append_nil]
      exact assignedFrom_sign some true start text rest

/-- What was read of a group that has no sign yet, and whether a name may come next. -/
def Unfinished (seen : List Token) : Bool → Prop
  | false => ∃ names, SepBy .comma Named (seen.map Token.word) names
  | true => seen = [] ∨ ∃ list comma names, seen = list ++ [comma] ∧ comma.kind = .comma ∧
      SepBy .comma Named (list.map Token.word) names

theorem SepBy.concat {list : List Word} {names : List String}
    (listed : SepBy .comma Named list names) (mark name : String) :
    SepBy .comma Named (list ++ [(.comma, mark), (.ident, name)]) (names ++ [name]) := by
  induction listed with
  | one first => exact .more first mark (.one (.ident name))
  | more first mark' _ ih =>
      rw [List.append_assoc]
      exact .more first mark' ih

theorem Unfinished.name {seen : List Token} (unfinished : Unfinished seen true) {t : Token}
    (ident : t.kind = .ident) : Unfinished (seen ++ [t]) false := by
  obtain ⟨kind, start, text⟩ := t
  change kind = .ident at ident
  subst ident
  rcases unfinished with rfl | ⟨list, ⟨kind, place, mark⟩, names, rfl, comma, listed⟩
  · exact ⟨[text], .one (.ident text)⟩
  · change kind = .comma at comma
    subst comma
    refine ⟨names ++ [text], ?_⟩
    rw [List.append_assoc, List.map_append]
    exact listed.concat mark text

/-- With its sign, what was read is a group. -/
theorem Unfinished.isGroup {seen : List Token} {nameNext : Bool}
    (unfinished : Unfinished seen nameNext) (some : seen ≠ []) {t : Token}
    (sign : t.kind = .assign) : IsGroup (seen ++ [t]) := by
  have last : t.word = (.assign, t.text) := by rw [Token.word, sign]
  cases nameNext with
  | false =>
      obtain ⟨names, listed⟩ := unfinished
      refine ⟨_, names, [], t.text, listed, .none, ?_⟩
      rw [List.map_append, List.map_singleton, last, List.append_nil]
  | true =>
      rcases unfinished with none | ⟨list, comma, names, rfl, mark, listed⟩
      · exact absurd none some
      · refine ⟨_, names, [(.comma, comma.text)], t.text, listed, .comma comma.text, ?_⟩
        have before : comma.word = (.comma, comma.text) := by rw [Token.word, mark]
        rw [List.map_append, List.map_append, List.map_singleton, List.map_singleton, last, before]

/-- **Where the scan finds something, there is a group**: it goes on from what was read of it. -/
theorem exists_group_of_assignedFrom {group tokens seen : List Token} {nameNext : Bool}
    (unfinished : Unfinished seen nameNext) (named : group ≠ [] → seen ≠ [])
    (found : assignedFrom group nameNext tokens ≠ []) :
    ∃ more rest, tokens = more ++ rest ∧ IsGroup (seen ++ more) := by
  fun_induction assignedFrom group nameNext tokens generalizing seen with
  | case1 => exact absurd rfl found
  | case2 group t rest ident ih =>
      obtain ⟨more, rest', rfl, isGroup⟩ := ih (unfinished.name ident) (by simp) found
      rw [List.append_assoc] at isGroup
      exact ⟨t :: more, rest', rfl, isGroup⟩
  | case3 => exact absurd rfl found
  | case4 => exact absurd rfl found
  | case5 group nameNext t rest comma next ih =>
      have listed : Unfinished seen false := by
        cases nameNext with
        | false => exact unfinished
        | true => exact absurd rfl next
      obtain ⟨names, listed⟩ := listed
      obtain ⟨more, rest', rfl, isGroup⟩ :=
        ih (Or.inr ⟨seen, t, names, rfl, comma, listed⟩) (by simp) found
      rw [List.append_assoc] at isGroup
      exact ⟨t :: more, rest', rfl, isGroup⟩
  | case6 => exact absurd rfl found
  | case7 group nameNext t rest sign some =>
      exact ⟨[t], rest, rfl, unfinished.isGroup (named some) sign⟩
  | case8 => exact absurd rfl found

/-! ### All groups -/

/-- Nothing but the last token of a group is a sign. -/
theorem IsGroup.exists_sign {group : List Token} (isGroup : IsGroup group) :
    ∃ early sign, group = early ++ [sign] ∧ sign.kind = .assign ∧
      ∀ t ∈ early, t.kind ≠ .assign := by
  obtain ⟨list, names, trailing, sign, rfl, listed, optional, same⟩ := isGroup.exists_tokens
  refine ⟨list ++ trailing, sign, (List.append_assoc ..).symm, same, fun t member => ?_⟩
  rcases List.mem_append.mp member with early | late
  · refine listed.forall_kind (P := (· ≠ .assign)) (by decide) (fun ws name named w inside => ?_)
      t.word (List.mem_map_of_mem early)
    cases named
    rw [List.mem_singleton.mp inside]
    exact Token.Kind.noConfusion
  · have inside := List.mem_map_of_mem (f := Token.word) late
    generalize trailing.map Token.word = ws at optional inside
    cases optional with
    | none => cases inside
    | comma mark =>
        have comma : t.kind = .comma := congrArg Prod.fst (List.mem_singleton.mp inside)
        rw [comma]
        exact Token.Kind.noConfusion

/-- **No group is the beginning of another**: the first sign ends it. -/
theorem IsGroup.eq_of_append {group group' rest rest' : List Token} (isGroup : IsGroup group)
    (isGroup' : IsGroup group') (same : group ++ rest = group' ++ rest') :
    group = group' ∧ rest = rest' := by
  obtain ⟨early, sign, rfl, mark, apart⟩ := isGroup.exists_sign
  obtain ⟨early', sign', rfl, mark', apart'⟩ := isGroup'.exists_sign
  rw [List.append_assoc, List.append_assoc, List.singleton_append, List.singleton_append] at same
  obtain ⟨taken, dropped⟩ := cut_append_cons apart sign mark rest
  obtain ⟨taken', dropped'⟩ := cut_append_cons apart' sign' mark' rest'
  rw [same, taken'] at taken
  rw [same, dropped'] at dropped
  obtain ⟨rfl, rfl⟩ := List.cons.inj dropped
  exact ⟨by rw [taken], rfl⟩

/-- **The longest chain of groups**: the scan takes the names of all of them, and whatever groups
the tokens start with are the first of these. -/
theorem exists_leadingGroups (tokens : List Token) :
    ∃ groups, StartsWithGroups tokens groups ∧
      (∀ others, StartsWithGroups tokens others → others <+: groups) ∧
      assignedFrom [] true tokens = identsOf groups.flatten := by
  -- the tokens behind a group are fewer
  induction size : tokens.length using Nat.strongRecOn generalizing tokens with
  | _ n ih =>
      by_cases first : ∃ group rest, tokens = group ++ rest ∧ IsGroup group
      · obtain ⟨group, rest, rfl, isGroup⟩ := first
        have shorter : rest.length < n := by
          obtain ⟨early, sign, rfl, -⟩ := isGroup.exists_sign
          rw [← size, List.length_append, List.length_append, List.length_singleton]
          omega
        obtain ⟨groups, ⟨all, starts⟩, longest, found⟩ := ih rest.length shorter rest rfl
        refine ⟨group :: groups, ⟨?_, ?_⟩, ?_, ?_⟩
        · intro g member
          rcases List.mem_cons.mp member with rfl | later
          · exact isGroup
          · exact all g later
        · rw [List.flatten_cons]
          exact (List.prefix_append_right_inj group).mpr starts
        · rintro (_ | ⟨g, others⟩) ⟨all', starts'⟩
          · exact List.nil_prefix
          · obtain ⟨behind, whole⟩ := starts'
            rw [List.flatten_cons, List.append_assoc] at whole
            obtain ⟨rfl, rest'⟩ := (all' g List.mem_cons_self).eq_of_append isGroup whole
            rw [List.cons_prefix_cons]
            refine ⟨rfl, longest others ⟨fun h member => ?_, ⟨behind, rest'⟩⟩⟩
            exact all' h (List.mem_cons_of_mem _ member)
        · rw [assignedFrom_group isGroup, found, List.flatten_cons, identsOf_append]
      · refine ⟨[], ⟨by simp, List.nil_prefix⟩, ?_, ?_⟩
        · rintro (_ | ⟨g, others⟩) ⟨all, behind, whole⟩
          · exact List.nil_prefix
          · rw [List.flatten_cons, List.append_assoc] at whole
            exact absurd ⟨g, _, whole.symm, all g List.mem_cons_self⟩ first
        · by_contra found
          have start : Unfinished [] true := Or.inl rfl
          obtain ⟨more, rest, split, isGroup⟩ :=
            exists_group_of_assignedFrom start (fun some => absurd rfl some) found
          exact first ⟨more, rest, split, isGroup⟩

/-- All longest chains are the one that the scan takes. -/
theorem LeadingGroups.assignedFrom_eq {tokens : List Token} {groups : List (List Token)}
    (leading : LeadingGroups tokens groups) :
    assignedFrom [] true tokens = identsOf groups.flatten := by
  obtain ⟨all, starts, longest, found⟩ := exists_leadingGroups tokens
  have same : groups = all :=
    (longest groups leading.1).eq_of_length_le (leading.2 all starts)
  rw [found, same]

/-! ### Lines -/

section Lines

variable {line : LexedLine} (outside : line.startsInString = false)

include outside

theorem definedTokens_of_headed {name : Token} (head : Headed line.tokens name) :
    definedTokens line = [name] := by
  obtain ⟨words, rest, whole, ident, kinds⟩ := head
  obtain ⟨kind, start, text⟩ := name
  change kind = .ident at ident
  subst ident
  simp only [List.mem_cons, List.not_mem_nil, or_false, List.map_eq_cons_iff,
    List.map_eq_nil_iff] at kinds
  rcases kinds with ⟨⟨_, _, _⟩, _, rfl, rfl, rfl⟩ | ⟨⟨_, _, _⟩, _, rfl, rfl, rfl⟩ |
    ⟨⟨_, _, _⟩, _, rfl, rfl, ⟨_, _, _⟩, _, rfl, rfl, rfl⟩
  · simp [definedTokens, outside, whole]
  · simp [definedTokens, outside, whole]
  · simp [definedTokens, outside, whole]

theorem definedTokens_of_not_headed (noHead : ∀ t, ¬ Headed line.tokens t) :
    definedTokens line = assignedTokens line.tokens := by
  unfold definedTokens
  rw [outside, if_neg (by decide)]
  split
  next place word start text rest whole =>
    refine absurd ?_ (noHead ⟨.ident, start, text⟩)
    exact ⟨[⟨.classWord, place, word⟩], rest, whole, rfl, by simp⟩
  next place word start text rest whole =>
    refine absurd ?_ (noHead ⟨.ident, start, text⟩)
    exact ⟨[⟨.defWord, place, word⟩], rest, whole, rfl, by simp⟩
  next place word place' word' start text rest whole =>
    refine absurd ?_ (noHead ⟨.ident, start, text⟩)
    exact ⟨[⟨.asyncWord, place, word⟩, ⟨.defWord, place', word'⟩], rest, whole, rfl, by simp⟩
  next => rfl

end Lines

theorem assignedTokens_of_annotated {tokens : List Token} {name : Token}
    (target : Annotated tokens name) : assignedTokens tokens = [name] := by
  obtain ⟨⟨kind', place, mark⟩, rest, rfl, ident, colon, sign⟩ := target
  obtain ⟨kind, start, text⟩ := name
  change kind = .ident at ident
  change kind' = .colon at colon
  subst ident colon
  have some : rest.any (fun t => t.kind = .assign) = true := by
    obtain ⟨t, member, same⟩ := List.mem_map.mp sign
    exact List.any_eq_true.mpr ⟨t, member, decide_eq_true same⟩
  rw [assignedTokens, if_pos some]

/-- A colon ends the scan. -/
theorem assignedTokens_of_not_annotated {tokens : List Token}
    (noTarget : ∀ t, ¬ Annotated tokens t) :
    assignedTokens tokens = assignedFrom [] true tokens := by
  unfold assignedTokens
  split
  next start text place mark rest =>
    split
    next sign =>
      obtain ⟨t, member, same⟩ := List.any_eq_true.mp sign
      refine absurd ?_ (noTarget ⟨.ident, start, text⟩)
      exact ⟨_, rest, rfl, rfl, rfl, List.mem_map.mpr ⟨t, member, of_decide_eq_true same⟩⟩
    next => rfl
  next => rfl

/-- **The grammar gives what the scan gives.** -/
theorem Defines.definedTokens_eq {line : LexedLine} (outside : line.startsInString = false)
    {names : List Token} (defines : Defines line.tokens names) : definedTokens line = names := by
  cases defines with
  | headed head => exact definedTokens_of_headed outside head
  | annotated noHead target =>
      rw [definedTokens_of_not_headed outside noHead, assignedTokens_of_annotated target]
  | assigned noHead noTarget leading =>
      rw [definedTokens_of_not_headed outside noHead, assignedTokens_of_not_annotated noTarget,
        leading.assignedFrom_eq]

/-- All tokens define something by one of the rules, if only nothing. -/
theorem exists_defines (tokens : List Token) : ∃ names, Defines tokens names := by
  by_cases head : ∃ name, Headed tokens name
  · obtain ⟨name, head⟩ := head
    exact ⟨[name], .headed head⟩
  · rw [not_exists] at head
    by_cases target : ∃ name, Annotated tokens name
    · obtain ⟨name, target⟩ := target
      exact ⟨[name], .annotated head target⟩
    · rw [not_exists] at target
      obtain ⟨groups, starts, longest, -⟩ := exists_leadingGroups tokens
      exact ⟨_, .assigned head target ⟨starts, fun others some => (longest others some).length_le⟩⟩

/-- What is defined stands among the tokens, in their order. -/
theorem Defines.sublist {tokens names : List Token} (defines : Defines tokens names) :
    names.Sublist tokens := by
  cases defines with
  | headed head =>
      obtain ⟨words, rest, rfl, -⟩ := head
      exact List.singleton_sublist.mpr (by simp)
  | annotated _ target =>
      obtain ⟨colon, rest, rfl, -⟩ := target
      exact List.singleton_sublist.mpr List.mem_cons_self
  | assigned _ _ leading => exact List.filter_sublist.trans leading.1.2.sublist

theorem isDeclarable_eq (name : String) :
    isDeclarable name = decide (name ∉ keywords ∧ name ∉ interpreterNames) := by
  simp [isDeclarable, isKeyword]

/-- What a line declares is read off what it defines. -/
theorem declaredNames_eq (line : LexedLine) :
    declaredNames line = if line.tokens.head?.map Token.start = some 0 then
      ((definedTokens line).map Token.text).filter fun name =>
        name ∉ keywords ∧ name ∉ interpreterNames else [] := by
  have margin : line.startsAtMargin = decide (line.tokens.head?.map Token.start = some 0) := by
    unfold LexedLine.startsAtMargin
    cases line.tokens with
    | nil => rfl
    | cons t rest =>
        rw [Bool.eq_iff_iff]
        simp
  rw [declaredNames, declaredTokens, margin]
  by_cases column : line.tokens.head?.map Token.start = some 0
  · rw [if_pos column, if_pos (decide_eq_true column), List.filter_map]
    exact congrArg _ (List.filter_congr fun t _ => isDeclarable_eq t.text)
  · rw [if_neg column, decide_eq_false column]
    rfl

/-- A token's text stands in the line at the token's place. -/
theorem exists_text_of_mem_tokens {source : List Char} {t : Token}
    (member : t ∈ (lexFresh source).tokens) :
    ∃ before after, source = before ++ (t.text.toList ++ after) ∧ byteWidth before = t.start := by
  obtain ⟨before, text, after, split, stands, spelled⟩ := exists_of_mem_tokensFrom member
  refine ⟨Lexeme.textOf before, Lexeme.textOf after, ?_, by omega⟩
  have whole := (lexemes_reads source).1
  change lexemes source = _ at split
  rw [split, Lexeme.textOf_append, Lexeme.textOf_cons] at whole
  rw [spelled, String.toList_ofList, ← whole]
  rfl

/-- **Declarations are recognised by their grammar.**  A line that starts outside of strings
defines the name behind `class`, `def` or `async def`; or else the target of an annotated
assignment; or else the names of all groups of the longest chain that it starts with.  These
are tokens of the line, in their order, and their texts stand in it where they do.  If its
first token stands in the first column, the line declares those of them that are neither
keywords nor set by the interpreter, and otherwise nothing. -/
theorem definedTokens_eq_iff_defines {line : LexedLine} (outside : line.startsInString = false) :
    (∀ names, definedTokens line = names ↔ Defines line.tokens names) ∧
      (definedTokens line).Sublist line.tokens ∧
      (∀ source, line = lexFresh source → ∀ t ∈ definedTokens line, ∃ before after,
        source = before ++ (t.text.toList ++ after) ∧ byteWidth before = t.start) ∧
      declaredNames line = (if line.tokens.head?.map Token.start = some 0 then
        ((definedTokens line).map Token.text).filter fun name =>
          name ∉ keywords ∧ name ∉ interpreterNames else []) := by
  obtain ⟨names, defines⟩ := exists_defines line.tokens
  have found := defines.definedTokens_eq outside
  refine ⟨fun others => ⟨?_, fun defines' => defines'.definedTokens_eq outside⟩, ?_, ?_,
    declaredNames_eq line⟩
  · rintro rfl
    rw [found]
    exact defines
  · rw [found]
    exact defines.sublist
  · rintro source rfl t member
    rw [found] at member
    exact exists_text_of_mem_tokens (defines.sublist.subset member)

/-- Two groups, the second one with a comma at its end; the comparison starts no group. -/
theorem definedTokens_eq_iff_defines_twoGroups :
    (lexFresh "a, __doc__ = b, = c == d".toList).startsInString = false ∧
      Defines (lexFresh "a, __doc__ = b, = c == d".toList).tokens
        [⟨.ident, 0, "a"⟩, ⟨.ident, 3, "__doc__"⟩, ⟨.ident, 13, "b"⟩] ∧
      declaredNames (lexFresh "a, __doc__ = b, = c == d".toList) = ["a", "b"] := by
  have outside : (lexFresh "a, __doc__ = b, = c == d".toList).startsInString = false := rfl
  obtain ⟨grammar, -, -, declared⟩ := definedTokens_eq_iff_defines outside
  refine ⟨outside, (grammar _).mp (by decide +kernel), declared.trans (by decide +kernel)⟩

end Amalgam
