import Amalgam.Script.Run
import Amalgam.Session

/-!
# Sessions stay in place

A program that a build runs may go to another directory, and it may change the rights that new
files get.  Both are its own: they are gone when it ends, and what the build does next depends
on neither.  So relative paths on a command line mean the same before and after the interpreter
was asked for its search path, and an output is written where the caller stands.

This is a law of hosts (`Host.StaysInPlace`).  A session keeps it for every host that has it,
and the host that runs scripts has it, whatever the scripts do.

## Main statements

* `Host.StaysInPlace.runCommand` — every command line
* `Script.host_staysInPlace` — the host that runs scripts
* `Script.origin_runCommand` — relative paths start where they did
-/

namespace Amalgam

namespace FileTree

/-- **A tree stays in place**: its entries may differ, but not the directory from which relative
paths start, the rights that new things do not get, and the time. -/
structure InPlace (tree after : FileTree) : Prop where
  workdir : after.workdir = tree.workdir
  mask : after.mask = tree.mask
  now : after.now = tree.now

namespace InPlace

variable {tree next after : FileTree}

theorem refl (tree : FileTree) : InPlace tree tree :=
  ⟨rfl, rfl, rfl⟩

theorem trans (first : InPlace tree next) (second : InPlace next after) : InPlace tree after :=
  ⟨second.workdir.trans first.workdir, second.mask.trans first.mask, second.now.trans first.now⟩

/-- The tree that is left, read off a result. -/
theorem left {α : Type} {result : α × FileTree} {value : α} (same : InPlace tree result.2)
    (found : result = (value, after)) : InPlace tree after := by
  rw [found] at same
  exact same

/-- Relative paths start where they did. -/
theorem origin (same : InPlace tree after) (p : Path) : after.origin p = tree.origin p := by
  rw [FileTree.origin, FileTree.origin, same.workdir]

theorem foldl {α : Type} {f : FileTree → α → FileTree} (step : ∀ t a, InPlace t (f t a))
    (as : List α) (tree : FileTree) : InPlace tree (as.foldl f tree) := by
  induction as generalizing tree with
  | nil => exact refl tree
  | cons a as ih => exact (step tree a).trans (ih (f tree a))

theorem put (same : InPlace tree after) (loc : Location) (entry : Entry) :
    InPlace tree (after.put loc entry) :=
  ⟨same.workdir, same.mask, same.now⟩

theorem setTraits (same : InPlace tree after) (loc : Location) (traits : Traits) :
    InPlace tree (after.setTraits loc traits) :=
  ⟨same.workdir, same.mask, same.now⟩

theorem erase (same : InPlace tree after) (loc : Location) : InPlace tree (after.erase loc) :=
  ⟨same.workdir, same.mask, same.now⟩

theorem setMode (same : InPlace tree after) (loc : Location) (mode : Nat) :
    InPlace tree (after.setMode loc mode) := by
  unfold FileTree.setMode
  split
  · exact same
  · refine setTraits ?_ loc _
    split
    · exact same
    · exact ⟨same.workdir, same.mask, same.now⟩

theorem fill (tree : FileTree) (loc : Location) (content : Bytes) :
    InPlace tree (tree.fill loc content) := by
  refine foldl (fun t place => ?_) _ tree
  exact ((refl t).put place _).setTraits place _

theorem putFresh (tree : FileTree) (loc : Location) (entry : Entry) (rights : Nat) :
    InPlace tree (tree.putFresh loc entry rights) :=
  (((refl tree).put loc entry).setTraits loc _).setMode loc _

theorem makeDirs (tree : FileTree) (loc : Location) : InPlace tree (tree.makeDirs loc) := by
  refine foldl (fun t n => ?_) _ tree
  dsimp only
  split
  · exact refl t
  · exact (refl t).put _ _

theorem writeAt {loc : Location} {content : Bytes} (done : tree.writeAt loc content = .ok after) :
    InPlace tree after := by
  unfold FileTree.writeAt at done
  split at done
  · cases done
  · cases done
    exact refl tree
  · cases done
    exact refl tree
  · split at done
    · cases done
      exact refl tree
    · cases done
  · cases done
    exact (refl tree).put loc _
  · cases done
    exact fill tree loc content
  · cases done
    exact putFresh tree loc _ _

theorem write {p : Path} {content : Bytes} (done : tree.write p content = .ok after) :
    InPlace tree after := by
  unfold FileTree.write at done
  split at done
  · cases done
  · exact writeAt done

theorem append {p : Path} {content : Bytes} (done : tree.append p content = .ok after) :
    InPlace tree after := by
  unfold FileTree.append at done
  split at done
  · cases done
  · split at done
    · exact writeAt done
    · cases done
    · cases done
      exact refl tree

theorem copy {source p : Path} (done : tree.copy source p = .ok after) : InPlace tree after := by
  unfold FileTree.copy at done
  split at done
  · cases done
  · split at done
    · split at done
      · cases done
      · exact writeAt done
    · cases done

end InPlace

end FileTree

open FileTree

/-! ### Sessions -/

/-- **A host stays in place**: a program that has ended left the tree in place. -/
def Host.StaysInPlace (host : Host) : Prop :=
  ∀ {tree : FileTree} {command : Command} {outcome : Outcome} {after : FileTree},
    host.run tree command = .ok (outcome, after) → InPlace tree after

theorem inPlace_writeText (tree : FileTree) (path : Path) (text : String) :
    InPlace tree (writeText tree path text).2 := by
  unfold writeText
  split
  next done => exact .write done
  · exact .refl tree

theorem inPlace_withSettings (tree : FileTree) (entry : Path) (overrides : Overrides)
    {next : Settings → Session} (same : ∀ settings, InPlace tree (next settings).tree) :
    InPlace tree (Request.withSettings tree entry overrides next).tree := by
  unfold Request.withSettings
  split
  · exact .refl tree
  next settings _ => exact same settings

namespace Host.StaysInPlace

variable {host : Host} (law : host.StaysInPlace) (tree : FileTree)
include law

theorem systemPaths (settings : Settings) :
    InPlace tree (systemPaths host tree settings).2 := by
  unfold Amalgam.systemPaths
  split
  · exact .refl tree
  · unfold interpreterPaths
    split
    · exact .refl tree
    next ran =>
      split <;> exact law ran

theorem combineFile (entry : Path) (settings : Settings) :
    InPlace tree (combineFile host tree entry settings).2 := by
  have asked := law.systemPaths tree settings
  unfold Amalgam.combineFile
  split
  next found => exact asked.left found
  next found => exact asked.left found

theorem compileSource (source : String) (output : Path) (interpreter : String) :
    InPlace tree (compileSource host tree source output interpreter).2 := by
  unfold Amalgam.compileSource
  dsimp only
  split
  · exact .refl tree
  next prepared =>
    have ready := (InPlace.makeDirs tree _).trans (.write prepared)
    split
    · exact .refl tree
    next ran =>
      have compiled := ready.trans (law ran)
      -- however it ended, the directory in which it was compiled is taken away
      split
      · exact compiled.erase _
      · split
        · exact compiled.erase _
        next copied => exact (compiled.trans (.copy copied)).erase _

theorem linkExecutable (program output : Path) (interpreter : String) :
    InPlace tree (linkExecutable host tree program output interpreter).2 := by
  unfold Amalgam.linkExecutable
  split
  · exact .refl tree
  · dsimp only
    split
    · exact .refl tree
    next ran =>
      -- the directory of the launcher is gone before the payload is added
      have linked := (((InPlace.makeDirs tree _).put _ _).trans (law ran)).erase
        (temporaryDir tree "launcher")
      split
      · exact linked
      · unfold appendPayload
        split
        next done =>
          split at done
          next appended =>
            cases done
            exact linked.trans (.append appended)
          · cases done
        · exact linked

theorem writeExecutable (source : String) (output : Path) (interpreter : String) :
    InPlace tree (writeExecutable host tree source output interpreter).2 := by
  have compiled := (InPlace.makeDirs tree (temporaryDir tree "staging")).trans
    (law.compileSource _ source (.ofLocation (temporaryDir tree "staging" ++ ["program.pyc"]))
      interpreter)
  unfold Amalgam.writeExecutable
  dsimp only
  split
  next found => exact (compiled.left found).erase _
  next found =>
    exact ((compiled.left found).trans (law.linkExecutable _ _ output interpreter)).erase _

theorem writeArtifact (source : String) (output : Path) (interpreter : String)
    (kind : ArtifactKind) :
    InPlace tree (writeArtifact host tree source output interpreter kind).2 := by
  cases kind with
  | source => exact inPlace_writeText tree output source
  | bytecode => exact law.compileSource tree source output interpreter
  | executable => exact law.writeExecutable tree source output interpreter

theorem buildFile (entry output : Path) (settings : Settings) (kind : ArtifactKind) :
    InPlace tree (buildFile host tree entry output settings kind).2 := by
  have combined := law.combineFile tree entry settings
  unfold Amalgam.buildFile
  split
  next found => exact combined.left found
  next program next found =>
    have written := (combined.left found).trans
      (law.writeArtifact next program.source output settings.interpreter kind)
    split
    next found => exact written.left found
    next found => exact written.left found

theorem runBuild (entry : Path) (settings : Settings) (output : Path) (kind : ArtifactKind) :
    InPlace tree (Request.runBuild host tree entry settings output kind).tree := by
  have built := law.buildFile tree entry output settings kind
  unfold Request.runBuild
  split
  next found => exact built.left found
  next found => exact built.left found

theorem runCombine (entry : Path) (settings : Settings) (output : Option Path) :
    InPlace tree (Request.runCombine host tree entry settings output).tree := by
  have combined := law.combineFile tree entry settings
  unfold Request.runCombine
  split
  next found => exact combined.left found
  next program next found =>
    have here := combined.left found
    dsimp only
    split
    · exact here
    next path =>
      have written := here.trans (inPlace_writeText next path program.source)
      split
      next found => exact written.left found
      next found => exact written.left found

theorem runGraph (entry : Path) (settings : Settings) (json : Bool) :
    InPlace tree (Request.runGraph host tree entry settings json).tree := by
  have combined := law.combineFile tree entry settings
  unfold Request.runGraph
  split
  next found => exact combined.left found
  next found => exact combined.left found

theorem run (request : Request) : InPlace tree (request.run host tree).tree := by
  cases request with
  | build entry overrides output kind =>
      rw [Request.run]
      exact inPlace_withSettings tree entry overrides fun settings =>
        law.runBuild tree entry settings output kind
  | combine entry overrides output =>
      rw [Request.run]
      exact inPlace_withSettings tree entry overrides fun settings =>
        law.runCombine tree entry settings output
  | graph entry overrides json =>
      rw [Request.run]
      exact inPlace_withSettings tree entry overrides fun settings =>
        law.runGraph tree entry settings json
  | help topic => exact .refl tree
  | version => exact .refl tree

/-- **A session stays in place**, whatever the command line asks for and however it ends. -/
theorem runCommand (args : List String) : InPlace tree (runCommand host tree args).tree := by
  unfold Amalgam.runCommand
  split
  · exact .refl tree
  next request _ => exact law.run tree request

end Host.StaysInPlace

/-! ### Scripts -/

/-- **Scripts stay in place**: where a script goes and what it allows is given up when it ends. -/
theorem Script.host_staysInPlace : Script.host.StaysInPlace := by
  intro tree command outcome after ran
  change (Script.programOf tree command).map (Script.runProgram tree) = _ at ran
  cases started : Script.programOf tree command with
  | error cause =>
      rw [started] at ran
      cases ran
  | ok program =>
      rw [started] at ran
      have left : Script.runProgram tree program = (outcome, after) := Except.ok.inj ran
      -- nothing has to be known of the script: a program is left with the ground it was given
      refine InPlace.left ?_ left
      exact ⟨rfl, rfl, rfl⟩

/-- **Relative paths start where they did** after every session in which scripts are run. -/
theorem Script.origin_runCommand (tree : FileTree) (args : List String) (p : Path) :
    (Amalgam.runCommand Script.host tree args).tree.origin p = tree.origin p :=
  (Script.host_staysInPlace.runCommand tree args).origin p

end Amalgam
