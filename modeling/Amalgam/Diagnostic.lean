import Amalgam.FileTree
import Amalgam.ImportForm

/-!
# Diagnostics

What a build reports without ending: places where the combined program may not do what the separate files
did.

## Main definitions

* `Finding`, `Finding.message` — what was found
* `Diagnostic` — a finding, with the file and the line it is about, if there are any
-/

namespace Amalgam

/-- What a build found. -/
inductive Finding where
  /-- A search directory was skipped, because the names in it cannot be read. -/
  | unlistedDirectory (cause : OsError)
  /-- An import of a module of the program shares its line with other statements. -/
  | joinedImport (form : ImportForm)
  /-- A wildcard import of a module of the program binds nothing. -/
  | idleWildcard (source : String)
  /-- Two modules bind one name to different things outside the program. -/
  | nameConflict (name target existing owner : String)
  /-- An import that closes a cycle was ignored. -/
  | brokenCycle (importer imported : String)
  | note (text : String)
  deriving DecidableEq, Repr

/-- The text of a finding. -/
def Finding.message : Finding → String
  | unlistedDirectory cause => "could not read search directory: " ++ cause.message
  | joinedImport form =>
    "'" ++ form.render ++ "' shares its line with other statements; '" ++ form.source ++
      "' is not inlined"
  | idleWildcard source =>
    "wildcard import from '" ++ source ++
      "' binds no names; its declarations are renamed but uses here are not"
  | nameConflict name target existing owner =>
    "'" ++ name ++ "' is bound to '" ++ target ++ "' here but to '" ++ existing ++ "' in '" ++
      owner ++ "'; the combined file keeps whichever runs last"
  | brokenCycle importer imported =>
    "circular import '" ++ importer ++ "' -> '" ++ imported ++ "' ignored; '" ++ imported ++
      "' is emitted first"
  | note text => text

/-- A finding and where it was made. -/
structure Diagnostic where
  finding : Finding
  path : Option Path := none
  line : Option Nat := none
  deriving DecidableEq, Repr

/-- The text of a diagnostic. -/
def Diagnostic.message (d : Diagnostic) : String :=
  d.finding.message

end Amalgam
