import Amalgam.FileTree
import Amalgam.Proofs.SourceLines

/-!
# Sound file trees

A tree lists locations with what stands there, and nothing in its type says that a location
comes once, or that the names in it are names.  `FileTree.Sound` says both.  This module shows that
every tree built by paths is sound, from the empty one on: whatever path is given, through
links or not, the names that are put into the tree are pieces of paths that mean neither the
directory itself nor the one above.

## Main statements

* `FileTree.follow_proper` — where a walk ends
* `FileTree.Sound.place`, `FileTree.sound_placeAll` — trees built by paths
-/

namespace Amalgam

/-! ### Names and locations -/

/-- **A name that a thing in a directory can have**: it stands for itself in a path. -/
structure IsEntryName (name : String) : Prop where
  nonempty : name ≠ ""
  whole : '/' ∉ name.toList
  notHere : name ≠ "."
  notUp : name ≠ ".."

instance (name : String) : Decidable (IsEntryName name) :=
  decidable_of_iff (name ≠ "" ∧ '/' ∉ name.toList ∧ name ≠ "." ∧ name ≠ "..")
    ⟨fun all => ⟨all.1, all.2.1, all.2.2.1, all.2.2.2⟩,
      fun proper => ⟨proper.nonempty, proper.whole, proper.notHere, proper.notUp⟩⟩

/-- A proper location: its parts are names. -/
def Location.Proper (loc : Location) : Prop :=
  ∀ name ∈ loc, IsEntryName name

instance (loc : Location) : Decidable loc.Proper :=
  inferInstanceAs (Decidable (∀ name ∈ loc, IsEntryName name))

theorem Location.Proper.nil : Location.Proper [] := by
  intro name member
  cases member

theorem Location.Proper.concat {loc : Location} (proper : loc.Proper) {name : String}
    (named : IsEntryName name) : Location.Proper (loc ++ [name]) :=
  List.forall_mem_append.mpr ⟨proper, List.forall_mem_singleton.mpr named⟩

theorem Location.Proper.dropLast {loc : Location} (proper : loc.Proper) :
    Location.Proper loc.dropLast :=
  fun name member => proper name ((List.dropLast_sublist loc).subset member)

/-- Steps of a walk have no slashes. -/
def Whole (steps : List String) : Prop :=
  ∀ step ∈ steps, '/' ∉ step.toList

theorem Path.steps_whole (p : Path) : Whole p.steps := by
  have named : Whole ((p.pieces.filter (· != [])).map String.ofList) := by
    intro step member
    obtain ⟨piece, kept, rfl⟩ := List.mem_map.mp member
    rw [String.toList_ofList]
    exact notMem_of_mem_splitAt piece (List.mem_filter.mp kept).1
  unfold Path.steps
  split
  · exact List.forall_mem_append.mpr ⟨named, by decide⟩
  · exact named

namespace FileTree

/-- **A sound tree**: one thing stands at a place, and every thing has a name that stands
for itself in a path. -/
structure Sound (tree : FileTree) : Prop where
  distinct : (tree.entries.map Prod.fst).Nodup
  named : ∀ entry ∈ tree.entries, ∀ name ∈ entry.1, IsEntryName name

/-! ### Walks -/

/-- Where a walk stopped has names, and what is left of it has no slashes. -/
def Advance.Proper : Advance → Prop
  | .reached loc => loc.Proper
  | .missing parent name _ => parent.Proper ∧ IsEntryName name
  | .refused _ => True
  | .link parent _ rest => parent.Proper ∧ Whole rest

/-- A step that is taken downwards is a name. -/
theorem advance_proper (tree : FileTree) (ending : Ending) {steps : List String}
    (whole : Whole steps) :
    ∀ {loc : Location}, loc.Proper → (tree.advance ending loc steps).Proper := by
  induction steps with
  | nil => exact fun proper => proper
  | cons step rest ih =>
      intro loc proper
      have later : Whole rest := fun other member => whole other (List.mem_cons_of_mem _ member)
      unfold advance
      dsimp only
      split
      · trivial
      split
      · exact ih later proper
      next moves =>
      split
      · exact ih later proper.dropLast
      next notUp =>
      have named : IsEntryName step := by
        rw [staysHere, Bool.or_eq_true, beq_iff_eq, beq_iff_eq, not_or] at moves
        exact ⟨moves.2, whole step List.mem_cons_self, moves.1, notUp⟩
      split
      · trivial
      split
      · trivial
      split
      · split
        · trivial
        · exact ⟨proper, named⟩
      · split
        · exact proper.concat named
        · exact ⟨proper, later⟩
      · exact ih later (proper.concat named)

/-- Where a path ends has names. -/
def Spot.Proper : Spot → Prop
  | .found loc => loc.Proper
  | .vacant parent name => parent.Proper ∧ IsEntryName name

/-- **A walk ends at a proper place**, through however many links it goes. -/
theorem follow_proper (tree : FileTree) (ending : Ending) (links : Nat) {loc : Location}
    {steps : List String} {spot : Spot} (proper : loc.Proper) (whole : Whole steps)
    (ends : tree.follow ending links loc steps = .ok spot) : spot.Proper := by
  have advanced := tree.advance_proper ending whole proper
  fun_induction tree.follow ending links loc steps with
  | case1 links loc steps reached stops =>
      cases ends
      rwa [stops] at advanced
  | case2 links loc steps parent name rest stops =>
      cases ends
      rwa [stops] at advanced
  | case3 => cases ends
  | case4 => cases ends
  | case5 => cases ends
  | case6 loc steps parent target rest stops links ih =>
      rw [stops] at advanced
      have start : Location.Proper (if (Path.mk target).isAbsolute then [] else parent) := by
        split
        · exact .nil
        · exact advanced.1
      have onward : Whole ((Path.mk target).steps ++ rest) :=
        List.forall_mem_append.mpr ⟨Path.steps_whole _, advanced.2⟩
      exact ih start onward ends (tree.advance_proper ending onward start)

/-! ### Trees built by paths -/

theorem Sound.put {tree : FileTree} (sound : tree.Sound) {loc : Location} (proper : loc.Proper)
    (entry : Entry) : (tree.put loc entry).Sound where
  distinct := by
    change ((tree.entries.filter (·.1 != loc) ++ [(loc, entry)]).map Prod.fst).Nodup
    rw [List.map_append]
    refine List.nodup_append.mpr ⟨sound.distinct.sublist (List.filter_sublist.map _),
      List.pairwise_singleton _ _, ?_⟩
    rintro other kept _ (_ | ⟨_, ⟨⟩⟩) rfl
    obtain ⟨thing, stays, rfl⟩ := List.mem_map.mp kept
    simpa using (List.mem_filter.mp stays).2
  named := by
    have kept : ∀ other ∈ tree.entries.filter (·.1 != loc), other.1.Proper :=
      fun other member => sound.named other (List.mem_filter.mp member).1
    exact List.forall_mem_append.mpr ⟨kept, List.forall_mem_singleton.mpr proper⟩

/-- Directories are made at proper places. -/
theorem Sound.makeWay {tree : FileTree} (sound : tree.Sound) {start : Location}
    (proper : start.Proper) {steps : List String} (whole : Whole steps) :
    (tree.makeWay start steps).Sound := by
  unfold FileTree.makeWay
  induction List.range steps.length generalizing tree with
  | nil => exact sound
  | cons n rest ih =>
      rw [List.foldl_cons]
      refine ih ?_
      have taken : Whole (steps.take (n + 1)) := fun step member =>
        whole step (List.mem_of_mem_take member)
      split
      next parent name vacant =>
        obtain ⟨inTree, named⟩ := tree.follow_proper .stay maxLinks proper taken vacant
        exact sound.put (inTree.concat named) .dir
      next => exact sound

theorem workdir_makeWay (tree : FileTree) (start : Location) (steps : List String) :
    (tree.makeWay start steps).workdir = tree.workdir := by
  unfold makeWay
  induction List.range steps.length generalizing tree with
  | nil => rfl
  | cons n rest ih =>
      rw [List.foldl_cons, ih]
      split <;> rfl

theorem origin_proper {tree : FileTree} (home : tree.workdir.Proper) (p : Path) :
    (tree.origin p).Proper := by
  unfold origin
  split
  · exact .nil
  · exact home

/-- **What is put where a path leads leaves a tree sound.** -/
theorem Sound.place {tree : FileTree} (sound : tree.Sound) (home : tree.workdir.Proper) (p : Path)
    (entry : Entry) : (tree.place p entry).Sound := by
  have front : Whole p.steps.dropLast := fun step member =>
    p.steps_whole step ((List.dropLast_sublist _).subset member)
  have way := sound.makeWay (origin_proper home p) front
  have home' : (tree.makeWay (tree.origin p) p.steps.dropLast).workdir.Proper := by
    rw [workdir_makeWay]
    exact home
  unfold FileTree.place
  dsimp only
  split
  next parent name vacant =>
    obtain ⟨inTree, named⟩ := follow_proper _ .stay maxLinks (origin_proper home' p) p.steps_whole
      vacant
    exact way.put (inTree.concat named) entry
  next loc found =>
    exact way.put (follow_proper _ .stay maxLinks (origin_proper home' p) p.steps_whole found) entry
  next => exact way

theorem workdir_place (tree : FileTree) (p : Path) (entry : Entry) :
    (tree.place p entry).workdir = tree.workdir := by
  unfold place
  dsimp only
  split <;> exact workdir_makeWay tree _ _

/-- The tree with things put where paths lead, one after the other. -/
def placeAll (workdir : Location) (things : List (Path × Entry)) : FileTree :=
  things.foldl (fun tree thing => tree.place thing.1 thing.2) { entries := [], workdir }

/-- **Trees built by paths are sound**, whatever paths are given and in whatever order. -/
theorem sound_placeAll {workdir : Location} (home : workdir.Proper)
    (things : List (Path × Entry)) : (placeAll workdir things).Sound := by
  have built : ∀ tree : FileTree, tree.Sound → tree.workdir.Proper →
      (things.foldl (fun tree thing => tree.place thing.1 thing.2) tree).Sound := by
    induction things with
    | nil => exact fun tree sound _ => sound
    | cons thing rest ih =>
        intro tree sound home
        refine ih _ (sound.place home thing.1 thing.2) ?_
        rw [workdir_place]
        exact home
  exact built { entries := [], workdir } ⟨List.Pairwise.nil, by simp⟩ home

end FileTree

end Amalgam
