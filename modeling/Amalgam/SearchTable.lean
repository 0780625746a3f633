import Amalgam.Diagnostic
import Amalgam.NameMap
import Amalgam.Policy

/-!
# The table of importable modules

Search directories are indexed one level deep: a directory **offers** a package for each subdirectory that
holds `__init__.py`, and a module for each other file with the extension `py`.  Within a directory a
package comes before a module of its name; among directories the first to offer a name provides it.
Archives and installation records are no packages.  A directory whose names cannot be read is reported
and skipped.

## Main definitions

* `SearchTable` — names and canonical paths
* `isSkipped` — names that are never searched
* `offersAmong`, `offersOf` — what a directory offers, in order of preference
* `SearchIndex` — the table, and what was found on the way
* `indexDirectory`, `searchIndex`, `searchTable`
-/

namespace Amalgam

/-- Importable names and the files that define them. -/
abbrev SearchTable := NameMap Path

/-- Endings of directories and files that are not searched. -/
def skippedEndings : List String :=
  [".egg", ".egg-info", ".dist-info", ".zip"]

/-- Does a name end in one of the endings that are not searched? -/
def hasSkippedEnding (name : String) : Bool :=
  skippedEndings.any fun ending => ending.toList.isSuffixOf name.toList

/-- Is the thing a path names left out of the search? -/
def isSkipped (p : Path) : Bool :=
  hasSkippedEnding (p.fileName?.getD "")

/-- The file that makes a directory a package. -/
def packageFile : String := "__init__.py"

/-- The packages among the named entries of a directory. -/
def packagesIn (tree : FileTree) (dir : Path) (names : List String) : List (String × Path) :=
  names.filterMap fun name =>
    let path := dir.child name
    if tree.isDir path && tree.isFile (path.child packageFile) then
      some (name, path.child packageFile)
    else none

/-- The modules among the named entries of a directory. -/
def modulesIn (tree : FileTree) (dir : Path) (names : List String) : List (String × Path) :=
  names.filterMap fun name =>
    let path := dir.child name
    if !tree.isDir path && path.extension? == some "py" then
      path.stem?.map fun stem => (stem, path)
    else none

/-- What the named entries of a directory offer, packages first. -/
def offersAmong (tree : FileTree) (dir : Path) (names : List String) : List (String × Path) :=
  let names := names.filter (!hasSkippedEnding ·)
  packagesIn tree dir names ++ modulesIn tree dir names

/-- What a directory offers, or why the names in it cannot be read. -/
def offersOf (tree : FileTree) (dir : Path) : Except OsError (List (String × Path)) :=
  if isSkipped dir || !tree.isDir dir then .ok []
  else (tree.list dir).map (offersAmong tree dir)

/-- What indexing directories gives. -/
structure SearchIndex where
  table : SearchTable := {}
  diagnostics : List Diagnostic := []
  deriving DecidableEq, Repr

/-- Adds offers to a table, except names that are there already. -/
def enterOffers (tree : FileTree) (table : SearchTable) (offers : List (String × Path)) : SearchTable :=
  offers.foldl (fun table (name, path) => table.insertNew name (tree.canonical path)) table

/-- Adds what a directory offers; one whose names cannot be read is reported and adds nothing. -/
def indexDirectory (tree : FileTree) (index : SearchIndex) (dir : Path) : SearchIndex :=
  match offersOf tree dir with
  | .ok offers => { index with table := enterOffers tree index.table offers }
  | .error cause =>
    { index with diagnostics := index.diagnostics ++ [{ finding := .unlistedDirectory cause, path := dir }] }

/-- The directories searched, in order. -/
def searchOrder (near : List Path) (mode : SearchMode) (system : List Path) : List Path :=
  match mode with
  | .near => near
  | .all => near ++ system

/-- The index of the directories. -/
def searchIndex (tree : FileTree) (dirs : List Path) : SearchIndex :=
  dirs.foldl (indexDirectory tree) {}

/-- The table of the directories. -/
def searchTable (tree : FileTree) (dirs : List Path) : SearchTable :=
  (searchIndex tree dirs).table

end Amalgam
