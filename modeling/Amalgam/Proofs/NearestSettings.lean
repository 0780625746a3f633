import Amalgam.Settings
import Amalgam.Proofs.SoundTrees
import Mathlib.Data.List.Infix

/-!
# The nearest settings file

The settings of a build are looked for in a directory and those above it.  The search works
on the text of a path and takes parents until there is none, with a bound on their number.
Here it is tied to the tree: the canonical path of a thing is the path of a location, the
parent of a location's path is the path of the location without its last name
(`Path.parent?_ofLocation_concat`), and a location has fewer names than its path has
characters, so the search looks at all locations above the one it starts from.

Which of them counts is a matter of two questions put to each directory in turn, whether it
holds the settings file and whether it holds `.git`.  `FileTree.NearestSettings` says which
directory is found without an order of questions: it holds the file, and no directory below it
on the way holds either.

## Main statements

* `Path.pieces_ofLocation`, `Path.ofLocation_inj`, `Path.child_ofLocation`
* `FileTree.nearestSettings_concat_iff` — one directory further in
* `nearestSettings_eq_some_iff`, `nearestSettings_eq_none_iff` — the search from a location
* `findSettings_nearest` — the search from any path
-/

namespace Amalgam

/-! ### Paths of locations -/

namespace Path

theorem toList_ofLocation (loc : Location) :
    (ofLocation loc).text.toList = '/' :: joinWith '/' (loc.map String.toList) := by
  rw [joinWith_eq_intercalate]
  simp [ofLocation]

variable {loc : Location} {name : String}

/-- **The pieces of a location's path** are its names, behind an empty one. -/
theorem pieces_ofLocation (proper : loc.Proper) (inside : loc ≠ []) :
    (ofLocation loc).pieces = [] :: loc.map String.toList := by
  have whole : ∀ piece ∈ loc.map String.toList, '/' ∉ piece := by
    intro piece member
    obtain ⟨name, named, rfl⟩ := List.mem_map.mp member
    exact (proper name named).whole
  rw [pieces, toList_ofLocation, splitAt_cons, if_pos rfl, joinWith_eq_intercalate,
    splitAt_eq_splitOn, List.splitOn_intercalate '/' whole (by simpa using inside)]

/-- The root is the only location with its path. -/
theorem ofLocation_ne_root (proper : loc.Proper) (inside : loc ≠ []) :
    ofLocation loc ≠ ofLocation [] := by
  intro same
  have pieces := pieces_ofLocation proper inside
  rw [same, show (ofLocation []).pieces = [[], []] by decide, List.cons_inj_right] at pieces
  obtain ⟨name, rfl, empty⟩ := List.map_eq_singleton_iff.mp pieces.symm
  exact (proper name List.mem_cons_self).nonempty (String.toList_inj.mp empty)

/-- **Different locations have different paths.** -/
theorem ofLocation_inj {loc' : Location} (proper : loc.Proper) (proper' : loc'.Proper)
    (same : ofLocation loc = ofLocation loc') : loc = loc' := by
  by_cases top : loc = []
  · subst top
    exact (Classical.byContradiction fun inside => ofLocation_ne_root proper' (Ne.symm inside) same.symm)
  by_cases top' : loc' = []
  · subst top'
    exact absurd same (ofLocation_ne_root proper top)
  have pieces := pieces_ofLocation proper top
  rw [same, pieces_ofLocation proper' top', List.cons_inj_right] at pieces
  exact (List.map_injective_iff.mpr (fun _ _ => String.toList_inj.mp) pieces).symm

theorem not_isVoid_of_isEntryName (named : IsEntryName name) :
    isVoid name.toList = false := by
  rw [isVoid, Bool.or_eq_false_iff, beq_eq_false_iff_ne, beq_eq_false_iff_ne]
  refine ⟨fun none => named.nonempty (String.toList_inj.mp none), fun dot => ?_⟩
  exact named.notHere (String.toList_inj.mp dot)

/-- Names at the end of a list of pieces stay. -/
theorem dropVoidEnd_names (proper : loc.Proper) :
    dropVoidEnd (loc.map String.toList) = loc.map String.toList := by
  rcases loc.eq_nil_or_concat with rfl | ⟨front, last, rfl⟩
  · rfl
  · have named : IsEntryName last := proper last (by simp)
    simp [dropVoidEnd, not_isVoid_of_isEntryName named]

/-- **The parent of a location's path** is the path of the location it is in. -/
theorem parent?_ofLocation_concat (proper : Location.Proper (loc ++ [name])) :
    (ofLocation (loc ++ [name])).parent? = some (ofLocation loc) := by
  have above : loc.Proper := by simpa using proper.dropLast
  rw [parent?, pieces_ofLocation proper (by simp)]
  simp only [dropVoidEnd_names proper]
  split
  next none => simp at none
  next =>
    rw [List.map_append, List.map_singleton, List.dropLast_concat, dropVoidEnd_names above]
    cases loc with
    | nil => rfl
    | cons first later =>
        have text : String.ofList (joinWith '/' ([] :: (first :: later).map String.toList)) =
            (ofLocation (first :: later)).text := by
          rw [← String.toList_inj, String.toList_ofList, toList_ofLocation]
          rfl
        exact congrArg (fun text => some (Path.mk text)) text

theorem parent?_ofLocation_nil : (ofLocation []).parent? = none := by decide

/-- The path of a location inside another. -/
theorem text_ofLocation_concat (inside : loc ≠ []) (name : String) :
    (ofLocation (loc ++ [name])).text = (ofLocation loc).text ++ "/" ++ name := by
  simp only [ofLocation]
  rw [String.intercalate_append_of_ne_nil inside (List.cons_ne_nil _ _),
    String.intercalate_singleton]
  simp only [String.append_assoc]

/-- The path of a location that is not the root does not end in a slash. -/
theorem getLast?_ofLocation (proper : loc.Proper) (inside : loc ≠ []) :
    (ofLocation loc).text.toList.getLast? ≠ some '/' := by
  rcases loc.eq_nil_or_concat with rfl | ⟨front, last, rfl⟩
  · exact absurd rfl inside
  rw [List.concat_eq_append] at *
  have named : IsEntryName last := proper last (by simp)
  obtain ⟨before, text⟩ : ∃ before, (ofLocation (front ++ [last])).text = before ++ last := by
    by_cases top : front = []
    · exact ⟨"/", by simp [top, ofLocation]⟩
    · exact ⟨_, text_ofLocation_concat top last⟩
  intro slash
  rw [text, String.toList_append, List.getLast?_append_of_ne_nil] at slash
  · exact named.whole (List.mem_of_getLast? slash)
  · exact fun none => named.nonempty (String.toList_inj.mp none)

/-- The path of a thing in a location. -/
theorem child_ofLocation (proper : loc.Proper) (named : IsEntryName name) :
    (ofLocation loc).child name = ofLocation (loc ++ [name]) := by
  have relative : isAbsolute ⟨name⟩ = false := by
    rw [isAbsolute, beq_eq_false_iff_ne]
    exact fun slash => named.whole (List.mem_of_head? slash)
  have written : (ofLocation loc).text.isEmpty = false := by
    rw [Bool.eq_false_iff, ne_eq, String.isEmpty_iff, ← String.toList_inj, toList_ofLocation]
    exact List.cons_ne_nil _ _
  rw [child, join, relative, written]
  by_cases top : loc = []
  · subst top
    simp [ofLocation]
  · rw [if_neg (by decide), if_neg (getLast?_ofLocation proper top), ← text_ofLocation_concat top]

/-- Things with the same name in different locations have different paths. -/
theorem child_ofLocation_inj {loc' : Location} (proper : loc.Proper) (proper' : loc'.Proper)
    (named : IsEntryName name) (same : (ofLocation loc).child name = (ofLocation loc').child name) :
    loc = loc' := by
  rw [child_ofLocation proper named, child_ofLocation proper' named] at same
  exact List.append_left_injective [name]
    (ofLocation_inj (proper.concat named) (proper'.concat named) same)

/-- A location has at most as many names as its path has characters. -/
theorem length_le_text_ofLocation (loc : Location) :
    loc.length ≤ (ofLocation loc).text.length := by
  have joined (pieces : List (List Char)) : pieces.length ≤ (joinWith '/' pieces).length + 1 := by
    fun_induction joinWith '/' pieces with
    | case1 => exact Nat.zero_le _
    | case2 => exact Nat.le_add_left _ _
    | case3 piece pieces more ih =>
        simp only [List.length_append, List.length_cons]
        omega
  rw [← String.length_toList, toList_ofLocation, List.length_cons]
  simpa using joined (loc.map String.toList)

end Path

/-! ### One directory after the other -/

namespace FileTree

/-- The directory holds a settings file. -/
def HoldsSettings (tree : FileTree) (dir : Location) : Prop :=
  tree.isFile ((Path.ofLocation dir).child settingsFile) = true

/-- The directory holds something called `.git`. -/
def HoldsGit (tree : FileTree) (dir : Location) : Prop :=
  tree.present ((Path.ofLocation dir).child ".git") = true

instance (tree : FileTree) (dir : Location) : Decidable (tree.HoldsSettings dir) :=
  inferInstanceAs (Decidable (_ = true))

instance (tree : FileTree) (dir : Location) : Decidable (tree.HoldsGit dir) :=
  inferInstanceAs (Decidable (_ = true))

/-- **The directory whose settings count at a location**: it is the location itself or above
it and holds a settings file, and no directory from the location up to it, itself left out,
holds a settings file or `.git`. -/
structure NearestSettings (tree : FileTree) (loc dir : Location) : Prop where
  above : dir <+: loc
  holds : tree.HoldsSettings dir
  free : ∀ other, dir <+: other → other <+: loc → other ≠ dir →
    ¬ tree.HoldsSettings other ∧ ¬ tree.HoldsGit other

instance (tree : FileTree) (loc dir : Location) : Decidable (tree.NearestSettings loc dir) :=
  decidable_of_iff
    (dir <+: loc ∧ tree.HoldsSettings dir ∧ ∀ other ∈ loc.inits, dir <+: other → other ≠ dir →
      ¬ tree.HoldsSettings other ∧ ¬ tree.HoldsGit other)
    ⟨fun ⟨above, holds, free⟩ =>
        ⟨above, holds, fun other up within => free other ((List.mem_inits other loc).mpr within) up⟩,
      fun ⟨above, holds, free⟩ =>
        ⟨above, holds, fun other member up => free other up ((List.mem_inits other loc).mp member)⟩⟩

theorem nearestSettings_nil_iff {tree : FileTree} {dir : Location} :
    tree.NearestSettings [] dir ↔ dir = [] ∧ tree.HoldsSettings [] := by
  constructor
  · rintro ⟨above, holds, -⟩
    cases List.prefix_nil.mp above
    exact ⟨rfl, holds⟩
  · rintro ⟨rfl, holds⟩
    exact ⟨List.prefix_rfl, holds, fun other _ within away =>
      absurd (List.prefix_nil.mp within) away⟩

/-- **One directory further in**: its own settings count, or, if it holds neither these nor
`.git`, those that count above it. -/
theorem nearestSettings_concat_iff {tree : FileTree} {loc dir : Location} {name : String} :
    tree.NearestSettings (loc ++ [name]) dir ↔
      dir = loc ++ [name] ∧ tree.HoldsSettings (loc ++ [name]) ∨
      (¬ tree.HoldsSettings (loc ++ [name]) ∧ ¬ tree.HoldsGit (loc ++ [name])) ∧
        tree.NearestSettings loc dir := by
  constructor
  · rintro ⟨above, holds, free⟩
    rcases List.prefix_concat_iff.mp above with rfl | further
    · exact Or.inl ⟨rfl, holds⟩
    · have away : loc ++ [name] ≠ dir := by
        rintro rfl
        exact absurd further.length_le (by simp)
      refine Or.inr ⟨free _ above List.prefix_rfl away, further, holds, fun other up within => ?_⟩
      exact free other up (within.trans (List.prefix_append _ _))
  · rintro (⟨rfl, holds⟩ | ⟨here, further, holds, free⟩)
    · refine ⟨List.prefix_rfl, holds, fun other up within away => ?_⟩
      exact absurd (within.eq_of_length (within.length_le.antisymm up.length_le)) away
    · refine ⟨further.trans (List.prefix_append _ _), holds, fun other up within away => ?_⟩
      rcases List.prefix_concat_iff.mp within with rfl | inner
      · exact here
      · exact free other up inner away

end FileTree

/-! ### The search -/

theorem nearestSettings_cons (tree : FileTree) (dir : Location) (rest : List Path) :
    nearestSettings tree (Path.ofLocation dir :: rest) =
      if tree.HoldsSettings dir then some ((Path.ofLocation dir).child settingsFile)
      else if tree.HoldsGit dir then none
      else nearestSettings tree rest := rfl

theorem ancestors_ofLocation_nil (fuel : Nat) :
    ancestors (fuel + 1) (Path.ofLocation []) = [Path.ofLocation []] := by
  rw [ancestors, Path.parent?_ofLocation_nil]

variable {loc : Location} {tree : FileTree}

theorem ancestors_ofLocation_concat {name : String} (proper : Location.Proper (loc ++ [name]))
    (fuel : Nat) :
    ancestors (fuel + 1) (Path.ofLocation (loc ++ [name])) =
      Path.ofLocation (loc ++ [name]) :: ancestors fuel (Path.ofLocation loc) := by
  rw [ancestors, Path.parent?_ofLocation_concat proper]

/-- **The search from a location** finds the settings that count there, if the bound on the
number of directories is greater than that of the names. -/
theorem nearestSettings_eq_some_iff (proper : loc.Proper) {fuel : Nat}
    (enough : loc.length < fuel) {file : Path} :
    nearestSettings tree (ancestors fuel (Path.ofLocation loc)) = some file ↔
      ∃ dir, tree.NearestSettings loc dir ∧ file = (Path.ofLocation dir).child settingsFile := by
  obtain ⟨fuel, rfl⟩ : ∃ fewer, fuel = fewer + 1 := ⟨fuel - 1, by omega⟩
  induction loc using List.reverseRecOn generalizing fuel with
  | nil =>
      rw [ancestors_ofLocation_nil, nearestSettings_cons]
      simp only [FileTree.nearestSettings_nil_iff]
      by_cases holds : tree.HoldsSettings []
      · rw [if_pos holds]
        constructor
        · rintro ⟨⟩
          exact ⟨[], ⟨rfl, holds⟩, rfl⟩
        · rintro ⟨dir, ⟨rfl, -⟩, rfl⟩
          rfl
      · rw [if_neg holds, nearestSettings, ite_self]
        constructor
        · rintro ⟨⟩
        · rintro ⟨dir, ⟨-, here⟩, -⟩
          exact absurd here holds
  | append_singleton loc name ih =>
      have above : Location.Proper loc := by simpa using proper.dropLast
      rw [ancestors_ofLocation_concat proper, nearestSettings_cons]
      simp only [FileTree.nearestSettings_concat_iff]
      by_cases holds : tree.HoldsSettings (loc ++ [name])
      · rw [if_pos holds]
        constructor
        · rintro ⟨⟩
          exact ⟨_, Or.inl ⟨rfl, holds⟩, rfl⟩
        · rintro ⟨dir, ⟨rfl, -⟩ | ⟨⟨missing, -⟩, -⟩, rfl⟩
          · rfl
          · exact absurd holds missing
      rw [if_neg holds]
      by_cases git : tree.HoldsGit (loc ++ [name])
      · rw [if_pos git]
        constructor
        · rintro ⟨⟩
        · rintro ⟨dir, ⟨-, here⟩ | ⟨⟨-, free⟩, -⟩, -⟩
          · exact absurd here holds
          · exact absurd git free
      · obtain ⟨fuel, rfl⟩ : ∃ fewer, fuel = fewer + 1 := ⟨fuel - 1, by
          rw [List.length_append, List.length_singleton] at enough
          omega⟩
        rw [if_neg git, ih above fuel (by simpa using enough)]
        simp only [holds, git, and_false, false_or, not_false_eq_true, true_and]

/-- **The search from a location finds nothing** exactly if no settings count there. -/
theorem nearestSettings_eq_none_iff (proper : loc.Proper) {fuel : Nat}
    (enough : loc.length < fuel) :
    nearestSettings tree (ancestors fuel (Path.ofLocation loc)) = none ↔
      ∀ dir, ¬ tree.NearestSettings loc dir := by
  simp only [Option.eq_none_iff_forall_ne_some, ne_eq, nearestSettings_eq_some_iff proper enough]
  constructor
  · exact fun none dir nearest => none _ ⟨dir, nearest, rfl⟩
  · rintro none file ⟨dir, nearest, -⟩
    exact none dir nearest

/-- **The canonical path of what is there** is the path of a location. -/
theorem FileTree.exists_ofLocation_of_canonical? (home : tree.workdir.Proper) {start dir : Path}
    (resolved : tree.canonical? start = .ok dir) :
    ∃ loc : Location, loc.Proper ∧ dir = Path.ofLocation loc := by
  have ends {spot : Spot} (walked : tree.walk .follow start = .ok spot) : spot.Proper := by
    unfold walk at walked
    split at walked
    · cases walked
    split at walked
    · cases walked
    · exact tree.follow_proper .follow maxLinks (origin_proper home start) start.steps_whole walked
  unfold canonical? at resolved
  cases walked : tree.walk .follow start with
  | error cause =>
      rw [walked] at resolved
      cases resolved
  | ok spot =>
      rw [walked] at resolved
      cases spot with
      | vacant parent name => cases resolved
      | found loc =>
          refine ⟨loc, ends walked, ?_⟩
          simp only [Spot.location] at resolved
          split at resolved
          · cases resolved
          · cases resolved
            rfl

/-- **The nearest settings below a repository's root are used.**  Let a search start from a
path that names something, and let `loc` be the place of its canonical path.  The search ends
and finds the settings file of a directory exactly if this is `loc` or a directory above it,
the file is there, and no directory from `loc` up to it, itself left out, holds a settings
file or `.git`.  It finds nothing exactly if there is no such directory. -/
theorem findSettings_nearest {tree : FileTree} (home : tree.workdir.Proper) {start dir : Path}
    (resolved : tree.canonical? start = .ok dir) :
    ∃ loc : Location, loc.Proper ∧ dir = Path.ofLocation loc ∧
      (∀ d : Location, d.Proper →
        (findSettings tree start = some ((Path.ofLocation d).child settingsFile) ↔
          tree.NearestSettings loc d)) ∧
      (findSettings tree start = none ↔ ∀ d, ¬ tree.NearestSettings loc d) := by
  obtain ⟨loc, proper, rfl⟩ := FileTree.exists_ofLocation_of_canonical? home resolved
  have enough : loc.length < (Path.ofLocation loc).text.length + 1 :=
    Nat.lt_succ_of_le (Path.length_le_text_ofLocation loc)
  have searched : findSettings tree start = nearestSettings tree
      (ancestors ((Path.ofLocation loc).text.length + 1) (Path.ofLocation loc)) := by
    simp only [findSettings, FileTree.canonical, resolved]
  refine ⟨loc, proper, rfl, fun d proper' => ?_, ?_⟩
  · rw [searched, nearestSettings_eq_some_iff proper enough]
    constructor
    · rintro ⟨d', nearest, same⟩
      have proper'' : Location.Proper d' := fun name member =>
        proper name (nearest.above.subset member)
      rw [Path.child_ofLocation_inj proper' proper'' (by decide) same]
      exact nearest
    · exact fun nearest => ⟨d, nearest, rfl⟩
  · rw [searched, nearestSettings_eq_none_iff proper enough]

/-- A repository with settings, in which `lib` is another one without, and a link into it from
outside. -/
def repositoryTree : FileTree where
  entries :=
    [(["proj"], .dir),
     (["proj", ".git"], .dir),
     (["proj", "coiler.toml"], .file [] false),
     (["proj", "src"], .dir),
     (["proj", "src", "app"], .dir),
     (["proj", "lib"], .dir),
     (["proj", "lib", ".git"], .file [] false),
     (["proj", "lib", "inner"], .dir),
     (["app"], .link "proj/src/app")]
  workdir := []

/-- The `.git` beside the settings does not hide them, and the one below does. -/
theorem findSettings_nearest_repositoryTree :
    repositoryTree.workdir.Proper ∧
      repositoryTree.canonical? ⟨"app"⟩ = .ok ⟨"/proj/src/app"⟩ ∧
      findSettings repositoryTree ⟨"app"⟩ = some ⟨"/proj/coiler.toml"⟩ ∧
      repositoryTree.canonical? ⟨"/proj/lib/inner/"⟩ = .ok ⟨"/proj/lib/inner"⟩ ∧
      findSettings repositoryTree ⟨"/proj/lib/inner/"⟩ = none := by
  have home : repositoryTree.workdir.Proper := .nil
  have inApp : repositoryTree.canonical? ⟨"app"⟩ = .ok (Path.ofLocation ["proj", "src", "app"]) := by
    decide +kernel
  have inLib : repositoryTree.canonical? ⟨"/proj/lib/inner/"⟩ =
      .ok (Path.ofLocation ["proj", "lib", "inner"]) := by decide +kernel
  obtain ⟨app, proper, same, found, -⟩ := findSettings_nearest home inApp
  obtain ⟨inner, proper', same', -, missing⟩ := findSettings_nearest home inLib
  cases Path.ofLocation_inj (by decide) proper same
  cases Path.ofLocation_inj (by decide) proper' same'
  refine ⟨home, inApp, ?_, inLib, missing.mpr fun d nearest => ?_⟩
  · exact (found ["proj"] (by decide)).mpr (by decide +kernel)
  · have none : ∀ dir ∈ ["proj", "lib", "inner"].inits,
        ¬ repositoryTree.NearestSettings ["proj", "lib", "inner"] dir := by decide +kernel
    exact none d ((List.mem_inits _ _).mpr nearest.above) nearest

end Amalgam
