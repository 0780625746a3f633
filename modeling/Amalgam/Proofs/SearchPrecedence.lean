import Amalgam.Proofs.FreshNames
import Amalgam.Proofs.SoundTrees
import Amalgam.SearchTable

/-!
# Which file a name is searched in

The search table is filled by going through directories, sorted names and two kinds of
offers, and an entry that is there is never replaced.  This module says what comes out
without any of that.  A directory **offers** one file for a name at most: the file that
makes a subdirectory of that name a package, or else the file of that name with the
extension.  A directory is **searched** if it has no ending that says otherwise and the names in
it can be read; if they cannot, it is reported and skipped, whatever it offers.  The table has
for a name what the first searched directory that offers one offers.

The offers of a directory are read off paths: the name of a thing is the last component of
its path (`Path.fileName?_child`), and a file name is cut at its last dot
(`Path.splitExtension_append`).  Both need that the things in a directory have names that
stand for themselves in a path, which is what `FileTree.Sound` says of a tree and what
every tree built by paths has (`Amalgam.Proofs.SoundTrees`).

Since an offer is a matter of what stands where in the tree, and not of how the tree is
listed, the table does not depend on the order of the listing
(`FileTree.Relisted.searchIndex_eq`).

## Main statements

* `lookup_offersSeen` — what is indexed of a directory
* `find?_indexDirectory`, `find?_searchTable` — the first offer stays
* `mem_diagnostics_searchIndex` — what is reported
* `FileTree.Relisted.searchIndex_eq` — the order of the listing
* `searchTable_first_offer_wins`
-/

namespace Amalgam

/-! ### Names in paths -/

namespace Path

/-- A name is the last piece of the path of the thing in a directory. -/
theorem exists_pieces_child (dir : Path) {name : String} (proper : IsEntryName name) :
    ∃ front, (dir.child name).pieces = front ++ [name.toList] := by
  have single : splitAt '/' name.toList = [name.toList] := by
    rw [splitAt_eq_splitOn]
    exact List.splitOn_eq_singleton proper.whole
  have relative : (Path.mk name).isAbsolute = false := by
    rw [isAbsolute, beq_eq_false_iff_ne]
    intro slash
    exact proper.whole (List.mem_of_mem_head? slash)
  have behind : ∀ t : List Char, splitAt '/' (t ++ '/' :: name.toList) =
      splitAt '/' t ++ [name.toList] := by
    intro t
    rw [splitAt_eq_splitOn, List.splitOn_append_cons_self, ← splitAt_eq_splitOn,
      ← splitAt_eq_splitOn, single]
  unfold child join pieces
  rw [relative, Bool.false_or]
  split
  · exact ⟨[], single⟩
  · split
    next ends =>
      obtain ⟨t, text⟩ := List.getLast?_eq_some_iff.mp ends
      refine ⟨splitAt '/' t, ?_⟩
      rw [String.toList_append, text, List.append_assoc]
      exact behind t
    next =>
      refine ⟨splitAt '/' dir.text.toList, ?_⟩
      rw [String.toList_append, String.toList_append, List.append_assoc]
      exact behind dir.text.toList

/-- **The thing of a name in a directory has that name.** -/
theorem fileName?_child (dir : Path) {name : String} (proper : IsEntryName name) :
    (dir.child name).fileName? = some name := by
  have nonempty : name.toList ≠ [] := fun empty =>
    proper.nonempty (String.toList_eq_nil_iff.mp empty)
  have notHere : name.toList ≠ ['.'] := fun dot =>
    proper.notHere (String.toList_inj.mp dot)
  have notUp : name.toList ≠ ['.', '.'] := fun dots =>
    proper.notUp (String.toList_inj.mp dots)
  have piece : Component.ofPiece name.toList = .name name := by
    rw [Component.ofPiece, if_neg notUp, String.ofList_toList]
  have said : (!isVoid name.toList) = true := by
    simp [isVoid, nonempty, notHere]
  obtain ⟨front, pieces⟩ := dir.exists_pieces_child proper
  have last : (dir.child name).components.getLast? = some (.name name) := by
    rw [components, pieces]
    cases front with
    | nil => simp [nonempty, notHere, piece]
    | cons first rest =>
        have later : (((rest ++ [name.toList]).filter (!isVoid ·)).map Component.ofPiece) =
            (rest.filter (!isVoid ·)).map Component.ofPiece ++ [.name name] := by
          rw [List.filter_append, List.filter_singleton, said, List.map_append]
          simp [piece]
        dsimp only [List.cons_append]
        rw [later]
        have ends (start : List Component) :
            (start ++ [Component.name name]).getLast? = some (.name name) := List.getLast?_concat
        split
        · split
          · exact ends (.root :: _)
          · exact ends _
        · split
          · exact ends (.here :: _)
          · exact ends (.ofPiece first :: _)
  rw [fileName?, last]

/-- A name with an extension is cut where the extension starts. -/
theorem splitExtension_append {stem ext : List Char} (nonempty : stem ≠ []) (plain : '.' ∉ ext) :
    splitExtension (stem ++ '.' :: ext) = (stem, some ext) := by
  have before : ∀ c ∈ ext.reverse, (c != '.') = true := by
    intro c member
    rw [bne_iff_ne]
    rintro rfl
    exact plain (List.mem_reverse.mp member)
  have reversed : (stem ++ '.' :: ext).reverse = ext.reverse ++ '.' :: stem.reverse := by simp
  rw [splitExtension, reversed, List.dropWhile_append_of_pos before,
    List.takeWhile_append_of_pos before]
  simp [nonempty]

/-- What is cut off a name is an extension, behind a stem and a dot. -/
theorem eq_append_of_splitExtension {name stem ext : List Char}
    (cut : splitExtension name = (stem, some ext)) : name = stem ++ '.' :: ext ∧ stem ≠ [] := by
  unfold splitExtension at cut
  have whole := List.takeWhile_append_dropWhile (p := (· != '.')) (l := name.reverse)
  split at cut
  next mark before rest =>
    have dot : mark = '.' := by
      have stops := List.head?_dropWhile_not (· != '.') name.reverse
      rw [rest] at stops
      simpa using stops
    split at cut
    · simp at cut
    next kept =>
      simp only [Prod.mk.injEq, Option.some.injEq] at cut
      obtain ⟨rfl, rfl⟩ := cut
      rw [rest, dot] at whole
      have turned := congrArg List.reverse whole
      rw [List.reverse_reverse] at turned
      exact ⟨by simpa using turned.symm, by simpa using kept⟩
  next => simp at cut

end Path

/-! ### What a directory offers -/

theorem FileTree.mem_names {tree : FileTree} {dir : Path} {name : String} :
    name ∈ tree.names dir ↔ ∃ loc, tree.locate dir = .ok loc ∧ name ∈ tree.namesAt loc := by
  unfold FileTree.names
  cases tree.locate dir with
  | ok loc => simp
  | error => simp

theorem FileTree.Sound.isEntryName {tree : FileTree} (sound : tree.Sound) {dir : Path}
    {name : String} (listed : name ∈ tree.names dir) : IsEntryName name := by
  obtain ⟨loc, -, inside⟩ := FileTree.mem_names.mp listed
  obtain ⟨entry, member, last⟩ := List.mem_filterMap.mp inside
  change FileTree.nameIn? loc entry.1 = some name at last
  unfold FileTree.nameIn? at last
  split at last
  · exact sound.named entry member name (List.mem_of_mem_getLast? last)
  · cases last

/-- No ending says that the thing is not searched. -/
def IsSearched (name : String) : Prop :=
  ∀ ending ∈ skippedEndings, ¬ ending.toList <:+ name.toList

theorem hasSkippedEnding_eq_false_iff {name : String} :
    hasSkippedEnding name = false ↔ IsSearched name := by
  simp [hasSkippedEnding, IsSearched]

/-- The file of a module is always searched. -/
theorem isSearched_moduleFile (name : String) : IsSearched (name ++ ".py") := by
  intro ending skipped ⟨front, text⟩
  have last := congrArg List.getLast? text
  rw [String.toList_append] at last
  simp only [skippedEndings, List.mem_cons, List.not_mem_nil, or_false] at skipped
  rcases skipped with rfl | rfl | rfl | rfl <;> simp at last

/-- The directory is to be searched: it is one, and has no ending that says otherwise. -/
structure ToBeSearched (tree : FileTree) (dir : Path) : Prop where
  isDir : tree.isDir dir = true
  named : IsSearched (dir.fileName?.getD "")

/-- **The directory is searched**: it is to be, and the names in it can be read. -/
structure Searches (tree : FileTree) (dir : Path) : Prop extends ToBeSearched tree dir where
  listable : tree.unlisted? dir = none

/-- **The directory is skipped** for a cause: it is to be searched, but the names in it cannot be
read. -/
structure Skips (tree : FileTree) (dir : Path) (cause : OsError) : Prop extends
    ToBeSearched tree dir where
  unlisted : tree.unlisted? dir = some cause

/-- The directory holds a package of the name: a subdirectory without an ending that says
otherwise, with the file that makes it a package. -/
structure HoldsPackage (tree : FileTree) (dir : Path) (name : String) : Prop where
  listed : name ∈ tree.names dir
  searched : IsSearched name
  isDir : tree.isDir (dir.child name) = true
  isFile : tree.isFile ((dir.child name).child packageFile) = true

/-- The directory holds a module of the name: something with the extension that is no
directory. -/
structure HoldsModule (tree : FileTree) (dir : Path) (name : String) : Prop where
  nonempty : name ≠ ""
  listed : name ++ ".py" ∈ tree.names dir
  notDir : tree.isDir (dir.child (name ++ ".py")) = false

/-- **The directory offers the file for the name**: that of the package, or that of the
module if there is no package. -/
inductive Offers (tree : FileTree) (dir : Path) (name : String) : Path → Prop where
  | package (holds : HoldsPackage tree dir name) :
      Offers tree dir name ((dir.child name).child packageFile)
  | module (holds : HoldsModule tree dir name) (shadow : ¬ HoldsPackage tree dir name) :
      Offers tree dir name (dir.child (name ++ ".py"))

/-- Looking a key up among what names give, if only one name can give the key. -/
theorem lookup_filterMap_eq_some_iff {α : Type} {f : String → Option (String × α)}
    {names : List String} {key : String} {value : α} (source : String)
    (only : ∀ name ∈ names, ∀ v, f name = some (key, v) → name = source) :
    (names.filterMap f).lookup key = some value ↔
      source ∈ names ∧ f source = some (key, value) := by
  have given : ∀ v, (names.filterMap f).lookup key = some v →
      source ∈ names ∧ f source = some (key, v) := by
    intro v found
    obtain ⟨name, inNames, gives⟩ := List.mem_filterMap.mp (mem_of_lookup found)
    obtain rfl := only name inNames v gives
    exact ⟨inNames, gives⟩
  refine ⟨given value, fun ⟨inNames, gives⟩ => ?_⟩
  have member : (key, value) ∈ names.filterMap f := List.mem_filterMap.mpr ⟨source, inNames, gives⟩
  obtain ⟨v, found⟩ := Option.isSome_iff_exists.mp (lookup_isSome_of_mem member)
  have same := (given v found).2
  rw [gives, Option.some.injEq, Prod.mk.injEq] at same
  rw [found, same.2]

section Directory

variable {tree : FileTree} {dir : Path} {name : String} {file : Path}

/-- The names of a directory that are searched. -/
theorem mem_searchedNames :
    name ∈ (tree.names dir).filter (!hasSkippedEnding ·) ↔
      name ∈ tree.names dir ∧ IsSearched name := by
  rw [List.mem_filter, Bool.not_eq_true', hasSkippedEnding_eq_false_iff]

theorem lookup_packagesIn :
    (packagesIn tree dir ((tree.names dir).filter (!hasSkippedEnding ·))).lookup name = some file ↔
      HoldsPackage tree dir name ∧ file = (dir.child name).child packageFile := by
  rw [packagesIn, lookup_filterMap_eq_some_iff name, mem_searchedNames]
  · dsimp only
    split
    next holds =>
      rw [Bool.and_eq_true] at holds
      constructor
      · rintro ⟨⟨listed, searched⟩, same⟩
        cases same
        exact ⟨⟨listed, searched, holds.1, holds.2⟩, rfl⟩
      · rintro ⟨package, rfl⟩
        exact ⟨⟨package.listed, package.searched⟩, rfl⟩
    next fails =>
      constructor
      · rintro ⟨-, same⟩
        cases same
      · rintro ⟨package, -⟩
        rw [package.isDir, package.isFile] at fails
        exact absurd rfl fails
  · intro other _ v same
    dsimp only at same
    split at same
    · cases same
      rfl
    · cases same

/-- A thing is a module of the name if it is called so, with the extension. -/
theorem moduleOf_eq_some_iff {entry : String} (proper : IsEntryName entry) :
    (if !tree.isDir (dir.child entry) && (dir.child entry).extension? == some "py" then
        (dir.child entry).stem?.map fun stem => (stem, dir.child entry)
      else none) = some (name, file) ↔
      entry = name ++ ".py" ∧ name ≠ "" ∧ tree.isDir (dir.child entry) = false ∧
        file = dir.child entry := by
  have called := dir.fileName?_child proper
  rw [Path.extension?, Path.stem?, called, Option.bind_some, Option.map_some, Option.map_some]
  constructor
  · intro offered
    rcases cut : Path.splitExtension entry.toList with ⟨stem, ext⟩
    rw [cut] at offered
    split at offered
    next holds =>
      rw [Bool.and_eq_true, Bool.not_eq_true', beq_iff_eq] at holds
      obtain ⟨ext, rfl, spelled⟩ := Option.map_eq_some_iff.mp holds.2
      obtain ⟨text, nonempty⟩ := Path.eq_append_of_splitExtension cut
      have py : ext = "py".toList := by rw [← spelled, String.toList_ofList]
      cases offered
      refine ⟨?_, ?_, holds.1, rfl⟩
      · rw [← String.toList_inj, String.toList_append, String.toList_ofList, text, py]
        rfl
      · exact fun empty => nonempty (String.ofList_eq_empty_iff.mp empty)
    next => cases offered
  · rintro ⟨rfl, nonempty, notDir, rfl⟩
    have cut : Path.splitExtension (name ++ ".py").toList = (name.toList, some "py".toList) := by
      rw [String.toList_append]
      refine Path.splitExtension_append (fun empty => ?_) (by decide)
      exact nonempty (String.toList_eq_nil_iff.mp empty)
    rw [cut, notDir]
    simp

theorem lookup_modulesIn (sound : tree.Sound) :
    (modulesIn tree dir ((tree.names dir).filter (!hasSkippedEnding ·))).lookup name = some file ↔
      HoldsModule tree dir name ∧ file = dir.child (name ++ ".py") := by
  rw [modulesIn, lookup_filterMap_eq_some_iff (name ++ ".py"), mem_searchedNames]
  · constructor
    · rintro ⟨⟨listed, -⟩, offered⟩
      obtain ⟨-, nonempty, notDir, rfl⟩ :=
        (moduleOf_eq_some_iff (sound.isEntryName listed)).mp offered
      exact ⟨⟨nonempty, listed, notDir⟩, rfl⟩
    · rintro ⟨holds, rfl⟩
      exact ⟨⟨holds.listed, isSearched_moduleFile name⟩,
        (moduleOf_eq_some_iff (sound.isEntryName holds.listed)).mpr
          ⟨rfl, holds.nonempty, holds.notDir, rfl⟩⟩
  · intro entry member v offered
    have listed := (mem_searchedNames.mp member).1
    exact ((moduleOf_eq_some_iff (sound.isEntryName listed)).mp offered).1

theorem not_skipped_iff : ¬ (isSkipped dir || !tree.isDir dir) = true ↔ ToBeSearched tree dir := by
  rw [Bool.or_eq_true, not_or, Bool.not_eq_true, Bool.not_eq_true, Bool.not_eq_false',
    isSkipped, hasSkippedEnding_eq_false_iff]
  exact ⟨fun holds => ⟨holds.2, holds.1⟩, fun holds => ⟨holds.named, holds.isDir⟩⟩

theorem offersOf_of_searches (searches : Searches tree dir) :
    offersOf tree dir = .ok (offersAmong tree dir (tree.names dir)) := by
  rw [offersOf, if_neg (not_skipped_iff.mpr searches.toToBeSearched), FileTree.list,
    searches.listable]
  rfl

/-- **Offers cannot be read exactly if the directory is skipped.** -/
theorem offersOf_eq_error_iff {cause : OsError} :
    offersOf tree dir = .error cause ↔ Skips tree dir cause := by
  unfold offersOf
  split
  next out =>
    constructor
    · intro fails
      cases fails
    · intro skips
      exact absurd out (not_skipped_iff.mpr skips.toToBeSearched)
  next within =>
    rw [not_skipped_iff] at within
    rw [FileTree.list]
    cases unlisted : tree.unlisted? dir with
    | none =>
        constructor
        · intro fails
          cases fails
        · intro skips
          rw [skips.unlisted] at unlisted
          cases unlisted
    | some other =>
        constructor
        · intro fails
          cases fails
          exact ⟨within, unlisted⟩
        · intro skips
          rw [skips.unlisted] at unlisted
          cases unlisted
          rfl

/-- What is indexed of a directory: nothing if its offers cannot be read. -/
def offersSeen (tree : FileTree) (dir : Path) : List (String × Path) :=
  (offersOf tree dir).toOption.getD []

/-- Where something is indexed, the directory is searched. -/
theorem searches_of_offersSeen (some : offersSeen tree dir ≠ []) : Searches tree dir := by
  by_cases out : (isSkipped dir || !tree.isDir dir) = true
  · rw [offersSeen, offersOf, if_pos out] at some
    exact absurd rfl some
  · refine ⟨not_skipped_iff.mp out, ?_⟩
    rw [Option.eq_none_iff_forall_ne_some]
    intro cause unlisted
    rw [offersSeen, offersOf_eq_error_iff.mpr ⟨not_skipped_iff.mp out, unlisted⟩] at some
    exact absurd rfl some

/-- **What is indexed of a directory for a name**, the directory offers, and it is searched. -/
theorem lookup_offersSeen (sound : tree.Sound) :
    (offersSeen tree dir).lookup name = some file ↔
      Searches tree dir ∧ Offers tree dir name file := by
  have offered (searches : Searches tree dir) :
      (offersSeen tree dir).lookup name = some file ↔ Offers tree dir name file := by
    rw [offersSeen, offersOf_of_searches searches]
    change (packagesIn _ _ _ ++ modulesIn _ _ _).lookup name = some file ↔ _
    rw [List.lookup_append, Option.or_eq_some_iff, lookup_packagesIn, lookup_modulesIn sound]
    constructor
    · rintro (⟨package, rfl⟩ | ⟨none, module, rfl⟩)
      · exact .package package
      · refine .module module fun package => ?_
        rw [lookup_packagesIn.mpr ⟨package, rfl⟩] at none
        cases none
    · intro offers
      cases offers with
      | package holds => exact Or.inl ⟨holds, rfl⟩
      | module holds shadow =>
          refine Or.inr ⟨?_, holds, rfl⟩
          rw [Option.eq_none_iff_forall_ne_some]
          exact fun other found => shadow (lookup_packagesIn.mp found).1
  constructor
  · intro found
    have searches : Searches tree dir := searches_of_offersSeen fun empty => by
      rw [empty] at found
      cases found
    exact ⟨searches, (offered searches).mp found⟩
  · exact fun ⟨searches, offers⟩ => (offered searches).mpr offers

end Directory

/-! ### The table -/

/-- An entry that is there stays. -/
theorem NameMap.find?_insertNew {α : Type} (m : NameMap α) (name other : String) (value : α) :
    (m.insertNew name value).find? other =
      (m.find? other).or (if other = name then some value else none) := by
  unfold NameMap.insertNew NameMap.contains
  split
  next present =>
    by_cases same : other = name
    · obtain ⟨old, found⟩ := Option.isSome_iff_exists.mp present
      rw [same, found, Option.some_or]
    · rw [if_neg same, Option.or_none]
  next absent =>
    rw [NameMap.find?_insert]
    by_cases same : other = name
    · rw [if_pos same, if_pos same, same, Option.not_isSome_iff_eq_none.mp absent, Option.none_or]
    · rw [if_neg same, if_neg same, Option.or_none]

/-- What offers add to a table. -/
theorem find?_enterOffers (tree : FileTree) (table : SearchTable) (offers : List (String × Path))
    (name : String) : (enterOffers tree table offers).find? name =
      (table.find? name).or ((offers.lookup name).map tree.canonical) := by
  unfold enterOffers
  induction offers generalizing table with
  | nil => simp
  | cons offer rest ih =>
      rw [List.foldl_cons, ih, NameMap.find?_insertNew, Option.or_assoc]
      obtain ⟨key, file⟩ := offer
      rw [NameMap.lookup_cons_eq]
      split <;> simp

/-- What one directory adds to the table. -/
theorem find?_indexDirectory (tree : FileTree) (index : SearchIndex) (dir : Path) (name : String) :
    (indexDirectory tree index dir).table.find? name =
      (index.table.find? name).or (((offersSeen tree dir).lookup name).map tree.canonical) := by
  unfold indexDirectory offersSeen
  cases offersOf tree dir with
  | ok offers => exact find?_enterOffers tree index.table offers name
  | error cause => exact Option.or_none.symm

/-- What one directory adds to the reports. -/
theorem mem_diagnostics_indexDirectory {tree : FileTree} {index : SearchIndex} {dir : Path}
    {d : Diagnostic} : d ∈ (indexDirectory tree index dir).diagnostics ↔ d ∈ index.diagnostics ∨
      ∃ cause, Skips tree dir cause ∧ d = { finding := .unlistedDirectory cause, path := dir } := by
  unfold indexDirectory
  cases seen : offersOf tree dir with
  | ok offers =>
      refine ⟨Or.inl, ?_⟩
      rintro (old | ⟨cause, skips, -⟩)
      · exact old
      · rw [offersOf_eq_error_iff.mpr skips] at seen
        cases seen
  | error cause =>
      have skips := offersOf_eq_error_iff.mp seen
      dsimp only
      rw [List.mem_append, List.mem_singleton]
      refine or_congr_right ⟨fun new => ⟨cause, skips, new⟩, ?_⟩
      rintro ⟨other, also, rfl⟩
      rw [Option.some.inj (skips.unlisted.symm.trans also.unlisted)]

/-- **The table has what the first directory offers that offers something.** -/
theorem find?_searchTable (tree : FileTree) (dirs : List Path) (name : String) :
    (searchTable tree dirs).find? name =
      dirs.findSome? fun dir => ((offersSeen tree dir).lookup name).map tree.canonical := by
  have added : ∀ index : SearchIndex, (dirs.foldl (indexDirectory tree) index).table.find? name =
      (index.table.find? name).or
        (dirs.findSome? fun dir => ((offersSeen tree dir).lookup name).map tree.canonical) := by
    induction dirs with
    | nil => simp
    | cons dir rest ih =>
        intro index
        rw [List.foldl_cons, ih, find?_indexDirectory, Option.or_assoc, List.findSome?_cons]
        cases ((offersSeen tree dir).lookup name).map tree.canonical <;> rfl
  exact added {}

/-- **The reports are of the directories that were skipped.** -/
theorem mem_diagnostics_searchIndex {tree : FileTree} {dirs : List Path} {d : Diagnostic} :
    d ∈ (searchIndex tree dirs).diagnostics ↔ ∃ dir ∈ dirs, ∃ cause, Skips tree dir cause ∧
      d = { finding := .unlistedDirectory cause, path := dir } := by
  have added : ∀ index : SearchIndex, d ∈ (dirs.foldl (indexDirectory tree) index).diagnostics ↔
      d ∈ index.diagnostics ∨ ∃ dir ∈ dirs, ∃ cause, Skips tree dir cause ∧
        d = { finding := .unlistedDirectory cause, path := dir } := by
    induction dirs with
    | nil => simp
    | cons dir rest ih =>
        intro index
        rw [List.foldl_cons, ih, mem_diagnostics_indexDirectory, or_assoc]
        simp only [List.exists_mem_cons_iff]
  rw [searchIndex, added]
  simp

section Table

variable {tree : FileTree} {name : String}

theorem lookup_offersSeen_eq_none (sound : tree.Sound) {dir : Path} :
    ((offersSeen tree dir).lookup name).map tree.canonical = none ↔
      (Searches tree dir → ∀ file, ¬ Offers tree dir name file) := by
  rw [Option.map_eq_none_iff, Option.eq_none_iff_forall_ne_some]
  constructor
  · intro none searches file offers
    exact none file ((lookup_offersSeen sound).mpr ⟨searches, offers⟩)
  · intro no file found
    obtain ⟨searches, offers⟩ := (lookup_offersSeen sound).mp found
    exact no searches file offers

theorem find?_searchTable_eq_some_iff (sound : tree.Sound) {dirs : List Path} {path : Path} :
    (searchTable tree dirs).find? name = some path ↔
      ∃ before dir after file, dirs = before ++ dir :: after ∧
        Searches tree dir ∧ Offers tree dir name file ∧ path = tree.canonical file ∧
        ∀ earlier ∈ before, Searches tree earlier → ∀ other, ¬ Offers tree earlier name other := by
  rw [find?_searchTable, List.findSome?_eq_some_iff]
  constructor
  · rintro ⟨before, dir, after, rfl, offered, first⟩
    obtain ⟨file, found, rfl⟩ := Option.map_eq_some_iff.mp offered
    obtain ⟨searches, offers⟩ := (lookup_offersSeen sound).mp found
    exact ⟨before, dir, after, file, rfl, searches, offers, rfl, fun earlier member =>
      (lookup_offersSeen_eq_none sound).mp (first earlier member)⟩
  · rintro ⟨before, dir, after, file, rfl, searches, offers, rfl, first⟩
    refine ⟨before, dir, after, rfl, ?_, fun earlier member =>
      (lookup_offersSeen_eq_none sound).mpr (first earlier member)⟩
    rw [(lookup_offersSeen sound).mpr ⟨searches, offers⟩, Option.map_some]

theorem find?_searchTable_eq_none_iff (sound : tree.Sound) {dirs : List Path} :
    (searchTable tree dirs).find? name = none ↔
      ∀ dir ∈ dirs, Searches tree dir → ∀ file, ¬ Offers tree dir name file := by
  rw [find?_searchTable, List.findSome?_eq_none_iff]
  exact forall₂_congr fun dir _ => lookup_offersSeen_eq_none sound

/-- **More directories leave the entries alone.** -/
theorem find?_searchTable_append {dirs : List Path} {path : Path}
    (found : (searchTable tree dirs).find? name = some path) (more : List Path) :
    (searchTable tree (dirs ++ more)).find? name = some path := by
  rw [find?_searchTable] at found ⊢
  rw [List.findSome?_append, found, Option.some_or]

end Table

/-! ### The order of the listing -/

/-- What stands at places that are all different does not depend on their order. -/
theorem lookup_of_perm {α β : Type} [BEq α] [LawfulBEq α] {xs ys : List (α × β)}
    (perm : xs.Perm ys) (distinct : (ys.map Prod.fst).Nodup) (key : α) :
    xs.lookup key = ys.lookup key := by
  have distinct' := (perm.map Prod.fst).nodup_iff.mpr distinct
  refine Option.ext fun value => ?_
  rw [lookup_eq_some_iff_mem distinct', lookup_eq_some_iff_mem distinct, perm.mem_iff]

/-- Sorted lists of the same names are the same. -/
theorem mergeSort_of_perm {xs ys : List String} (perm : xs.Perm ys) :
    xs.mergeSort (· ≤ ·) = ys.mergeSort (· ≤ ·) := by
  have sorted (names : List String) :
      (names.mergeSort (· ≤ ·)).Pairwise fun a b => decide (a ≤ b) = true := by
    refine List.pairwise_mergeSort (fun a b c first second => ?_) (fun a b => ?_) names
    · rw [decide_eq_true_eq] at first second ⊢
      exact String.le_trans first second
    · rw [Bool.or_eq_true, decide_eq_true_eq, decide_eq_true_eq]
      exact String.le_total a b
  refine List.Perm.eq_of_pairwise (fun a b _ _ first second => ?_) (sorted xs) (sorted ys)
    ((xs.mergeSort_perm _).trans (perm.trans (ys.mergeSort_perm _).symm))
  exact String.le_antisymm (of_decide_eq_true first) (of_decide_eq_true second)

namespace FileTree

/-- **Two trees in which the same things stand**, listed in any order. -/
structure Relisted (tree tree' : FileTree) : Prop where
  entries : tree'.entries.Perm tree.entries
  workdir : tree'.workdir = tree.workdir
  traits : ∀ loc, tree'.traitsAt loc = tree.traitsAt loc

namespace Relisted

variable {tree tree' : FileTree} (same : tree.Relisted tree') (sound : tree.Sound)

include same sound

theorem entry?_eq : tree'.entry? = tree.entry? := by
  funext loc
  rw [ entry?, entry?, lookup_of_perm same.entries sound.distinct]

theorem advance_eq (ending : Ending) (loc : Location) (steps : List String) :
    tree'.advance ending loc steps = tree.advance ending loc steps := by
  induction steps generalizing loc with
  | nil => rfl
  | cons step rest ih =>
      rw [advance, advance]
      simp only [same.entry?_eq sound, ih]

theorem follow_eq (ending : Ending) (links : Nat) (loc : Location) (steps : List String) :
    tree'.follow ending links loc steps = tree.follow ending links loc steps := by
  induction links generalizing loc steps with
  | zero =>
      rw [follow, follow, same.advance_eq sound]
  | succ links ih =>
      rw [follow, follow, same.advance_eq sound]
      cases tree.advance ending loc steps with
      | link parent target rest => exact ih _ _
      | reached => rfl
      | missing => rfl
      | refused => rfl

theorem walk_eq (ending : Ending) (p : Path) : tree'.walk ending p = tree.walk ending p := by
  rw [walk, walk, same.follow_eq sound, origin, origin, same.workdir]

theorem locate_eq (p : Path) : tree'.locate p = tree.locate p := by
  rw [locate, locate, spot, spot, same.walk_eq sound]

theorem canonical_eq (p : Path) : tree'.canonical p = tree.canonical p := by
  simp only [canonical, canonical?, same.walk_eq sound, same.entry?_eq sound]

theorem isDir_eq (p : Path) : tree'.isDir p = tree.isDir p := by
  simp only [isDir, entryAt?, same.locate_eq sound, same.entry?_eq sound]

theorem isFile_eq (p : Path) : tree'.isFile p = tree.isFile p := by
  simp only [isFile, entryAt?, same.locate_eq sound, same.entry?_eq sound]

theorem names_eq (p : Path) : tree'.names p = tree.names p := by
  have listed (loc : Location) : (tree'.namesAt loc).Perm (tree.namesAt loc) :=
    same.entries.filterMap _
  simp only [names, same.locate_eq sound]
  cases tree.locate p with
  | ok loc => exact mergeSort_of_perm (listed loc)
  | error => rfl

theorem list_eq (p : Path) : tree'.list p = tree.list p := by
  have unlisted : tree'.unlisted? p = tree.unlisted? p := by
    simp only [ unlisted?, same.locate_eq sound, same.entry?_eq sound, same.traits]
  rw [list, list, unlisted, same.names_eq sound]

/-- **The index does not depend on the order of the listing.** -/
theorem searchIndex_eq (dirs : List Path) : searchIndex tree' dirs = searchIndex tree dirs := by
  have offers (dir : Path) : offersOf tree' dir = offersOf tree dir := by
    have among : offersAmong tree' dir = offersAmong tree dir := by
      funext names
      simp only [offersAmong, packagesIn, modulesIn, same.isDir_eq sound, same.isFile_eq sound]
    rw [offersOf, offersOf, among, same.isDir_eq sound, same.list_eq sound]
  have entered : enterOffers tree' = enterOffers tree := by
    funext table offers
    simp only [enterOffers, same.canonical_eq sound]
  have indexed : indexDirectory tree' = indexDirectory tree := by
    funext index dir
    unfold indexDirectory
    rw [offers, entered]
  rw [searchIndex, searchIndex, indexed]

end Relisted

end FileTree

/-! ### Precedence -/

/-- **The first directory that offers a name provides it.**  Let a sound tree be searched in
the near directories and, if the mode asks for it, in those of the system after them.  The
table has for a name the canonical path of what the first directory offers that is searched
and offers something; it has nothing for a name that no directory offers.  What is reported is
that directories were skipped, since the names in them cannot be read.  The order in which the
tree is listed does not matter, and more directories behind the others change no entry. -/
theorem searchTable_first_offer_wins {tree : FileTree} (sound : tree.Sound) (near : List Path)
    (mode : SearchMode) (system : List Path) :
    searchOrder near mode system = near ++ (if mode = .all then system else []) ∧
    (∀ name path, (searchTable tree (searchOrder near mode system)).find? name = some path ↔
      ∃ before dir after file, searchOrder near mode system = before ++ dir :: after ∧
        Searches tree dir ∧ Offers tree dir name file ∧ path = tree.canonical file ∧
        ∀ earlier ∈ before, Searches tree earlier → ∀ other, ¬ Offers tree earlier name other) ∧
    (∀ name, (searchTable tree (searchOrder near mode system)).find? name = none ↔
      ∀ dir ∈ searchOrder near mode system, Searches tree dir →
        ∀ file, ¬ Offers tree dir name file) ∧
    (∀ d, d ∈ (searchIndex tree (searchOrder near mode system)).diagnostics ↔
      ∃ dir ∈ searchOrder near mode system, ∃ cause, Skips tree dir cause ∧
        d = { finding := .unlistedDirectory cause, path := dir }) ∧
    (∀ tree', tree.Relisted tree' →
      searchIndex tree' (searchOrder near mode system) =
        searchIndex tree (searchOrder near mode system)) ∧
    ∀ more name path, (searchTable tree (searchOrder near mode system)).find? name = some path →
      (searchTable tree (searchOrder near mode system ++ more)).find? name = some path := by
  refine ⟨?_, fun name path => find?_searchTable_eq_some_iff sound,
    fun name => find?_searchTable_eq_none_iff sound, fun d => mem_diagnostics_searchIndex,
    fun tree' same => same.searchIndex_eq sound _,
    fun more name path found => find?_searchTable_append found more⟩
  cases mode with
  | near => exact (List.append_nil near).symm
  | all => rfl

/-- In `near`, a package and a module have one name and `tool.py` is a link; `far` has a tool,
too, and a package that is not searched; so has `shut`, whose names cannot be read. -/
def layeredTree : FileTree where
  entries :=
    [(["near"], .dir),
     (["near", "pkg.py"], .file [] false),
     (["near", "pkg"], .dir),
     (["near", "pkg", "__init__.py"], .file [] false),
     (["near", "tool.py"], .link "../far/extra.py"),
     (["far"], .dir),
     (["far", "tool.py"], .file [] false),
     (["far", "extra.py"], .file [] false),
     (["far", "old.egg"], .dir),
     (["far", "old.egg", "__init__.py"], .file [] false),
     (["shut"], .dir),
     (["shut", "tool.py"], .file [] false)]
  workdir := []
  traits := [(["shut"], { unlisted := some .permissionDenied })]

theorem layeredTree_sound : layeredTree.Sound where
  distinct := by decide
  named := by decide

/-- Nothing is found in the directory whose names cannot be read, though it is the first and
offers a tool; it is reported.  The package is found before the module, the near tool before the
far one, and the package that is not searched not at all, however the tree is listed. -/
theorem searchTable_first_offer_wins_layeredTree :
    layeredTree.Sound ∧
    Offers layeredTree ⟨"/shut"⟩ "tool" ⟨"/shut/tool.py"⟩ ∧
    (⟨.unlistedDirectory .permissionDenied, some ⟨"/shut"⟩, none⟩ : Diagnostic) ∈
      (searchIndex layeredTree [⟨"/shut"⟩, ⟨"/near"⟩, ⟨"/far"⟩]).diagnostics ∧
    (searchTable layeredTree [⟨"/shut"⟩, ⟨"/near"⟩, ⟨"/far"⟩]).find? "pkg" =
      some ⟨"/near/pkg/__init__.py"⟩ ∧
    (searchTable layeredTree [⟨"/shut"⟩, ⟨"/near"⟩, ⟨"/far"⟩]).find? "tool" =
      some ⟨"/far/extra.py"⟩ ∧
    (searchTable layeredTree [⟨"/shut"⟩, ⟨"/near"⟩, ⟨"/far"⟩]).find? "old.egg" = none ∧
    searchIndex { layeredTree with entries := layeredTree.entries.reverse }
      [⟨"/shut"⟩, ⟨"/near"⟩, ⟨"/far"⟩] =
        searchIndex layeredTree [⟨"/shut"⟩, ⟨"/near"⟩, ⟨"/far"⟩] ∧
    (searchTable layeredTree [⟨"/shut"⟩, ⟨"/near"⟩, ⟨"/far"⟩, ⟨"/near/pkg"⟩]).find? "pkg" =
      some ⟨"/near/pkg/__init__.py"⟩ := by
  obtain ⟨-, found, missing, reports, relisted, stays⟩ :=
    searchTable_first_offer_wins layeredTree_sound [⟨"/shut"⟩, ⟨"/near"⟩] .all [⟨"/far"⟩]
  have searched (name : String) (free : hasSkippedEnding name = false) : IsSearched name :=
    hasSkippedEnding_eq_false_iff.mp free
  have inShut : layeredTree.locate ⟨"/shut"⟩ = .ok ["shut"] := by decide +kernel
  have inNear : layeredTree.locate ⟨"/near"⟩ = .ok ["near"] := by decide +kernel
  have inFar : layeredTree.locate ⟨"/far"⟩ = .ok ["far"] := by decide +kernel
  have near : Searches layeredTree ⟨"/near"⟩ :=
    ⟨⟨by decide +kernel, searched _ (by decide +kernel)⟩, by decide +kernel⟩
  have shut : Skips layeredTree ⟨"/shut"⟩ .permissionDenied :=
    ⟨⟨by decide +kernel, searched _ (by decide +kernel)⟩, by decide +kernel⟩
  have skipped : ∀ earlier ∈ [Path.mk "/shut"], ¬ Searches layeredTree earlier := by
    intro earlier member searches
    obtain rfl := List.mem_singleton.mp member
    have unlisted := shut.unlisted
    rw [searches.listable] at unlisted
    cases unlisted
  have package : Offers layeredTree ⟨"/near"⟩ "pkg" ⟨"/near/pkg/__init__.py"⟩ :=
    .package ⟨FileTree.mem_names.mpr ⟨_, inNear, by decide⟩, searched _ (by decide +kernel),
      by decide +kernel, by decide +kernel⟩
  have tool : Offers layeredTree ⟨"/near"⟩ "tool" ⟨"/near/tool.py"⟩ := by
    refine .module ⟨by decide, FileTree.mem_names.mpr ⟨_, inNear, by decide⟩, by decide +kernel⟩ ?_
    intro holds
    exact absurd holds.isDir (by decide +kernel)
  have shutTool : Offers layeredTree ⟨"/shut"⟩ "tool" ⟨"/shut/tool.py"⟩ := by
    refine .module ⟨by decide, FileTree.mem_names.mpr ⟨_, inShut, by decide⟩, by decide +kernel⟩ ?_
    intro holds
    exact absurd holds.isDir (by decide +kernel)
  have hidden : ∀ dir ∈ [Path.mk "/shut", ⟨"/near"⟩, ⟨"/far"⟩], ∀ file,
      ¬ Offers layeredTree dir "old.egg" file := by
    intro dir member file offers
    cases offers with
    | package holds =>
        exact holds.searched ".egg" (by decide) (by decide)
    | module holds =>
        obtain ⟨loc, located, inside⟩ := FileTree.mem_names.mp holds.listed
        have places : ∀ loc ∈ [["shut"], ["near"], ["far"]],
            "old.egg.py" ∉ layeredTree.namesAt loc := by decide
        have place : loc ∈ [["shut"], ["near"], ["far"]] := by
          simp only [List.mem_cons, List.not_mem_nil, or_false] at member
          rcases member with rfl | rfl | rfl
          · rw [inShut] at located
            cases located
            decide
          · rw [inNear] at located
            cases located
            decide
          · rw [inFar] at located
            cases located
            decide
        exact places loc place inside
  have pkg := (found "pkg" _).mpr ⟨[⟨"/shut"⟩], _, _, _, rfl, near, package, rfl,
    fun earlier member searches => absurd searches (skipped earlier member)⟩
  rw [show layeredTree.canonical ⟨"/near/pkg/__init__.py"⟩ = ⟨"/near/pkg/__init__.py"⟩ by
    decide +kernel] at pkg
  refine ⟨layeredTree_sound, shutTool, (reports _).mpr ⟨_, List.mem_cons_self, _, shut, rfl⟩, pkg,
    ?_, (missing "old.egg").mpr fun dir member _ => hidden dir member,
    relisted _ ⟨List.reverse_perm _, rfl, fun _ => rfl⟩, stays [⟨"/near/pkg"⟩] _ _ pkg⟩
  exact (found "tool" _).mpr ⟨[⟨"/shut"⟩], _, _, _, rfl, near, tool, by decide +kernel,
    fun earlier member searches => absurd searches (skipped earlier member)⟩

end Amalgam
