import Amalgam.Build
import Amalgam.Declaration
import Amalgam.Statement

/-!
# Scanning files

Scanning a file adds its module to the build, records its declarations, and follows its imports: a module
of the program is scanned before its names are bound, a name that the search table does not know is
outside the program.  A fault ends the scan and leaves what was recorded so far.

The scan of one file calls the scan of others, so `scanFile` takes a bound on the nesting; each nested scan
adds a file of the search table to the graph, and `scan` allows one level more than there are such files
beside the entry.

## Main definitions

* `Scan` — a computation on the build that may fail
* `resolveModule` — the module that an import means
* `bindImport` — what one clause does
* `scanStatement`, `scanFile`, `scan`
-/

namespace Amalgam

/-- A computation on the state of a build that may fail; what it did before it failed stays done. -/
abbrev Scan := ExceptT Fault (StateM Build)

/-- Changes the state of the build. -/
def Scan.update (f : Build → Build) : Scan Unit :=
  modify f

/-- The module that a name leads to, if it was looked for already. -/
def knownModule? (b : Build) (name : String) : Option Nat :=
  if b.visited.contains name then b.graph.byName? name else none

/-- The module that an import means, scanned by `scanPath` if it was not yet; `none` if the name is
outside the program. -/
def resolveModule (scanPath : Path → Scan Nat) (name : String) : Scan (Option Nat) := do
  let b ← get
  match knownModule? b name with
  | some id => return some id
  | none =>
    match b.table.find? name with
    | some path =>
      Scan.update (·.markVisited name)
      let id ← scanPath path
      Scan.update fun b => { b with graph := b.graph.addName name id }
      return some id
    | none =>
      Scan.update (·.addExternal name)
      return none

/-- The names that an import of a module makes visible, with what they mean. -/
def importedNames (wildcard : WildcardPolicy) (symbols : SymbolTable) :
    ImportForm → List (String × String)
  | .wildcard _ =>
    match wildcard with
    | .bind => symbols.exported.filter fun (name, _) => name.toList.head? != some '_'
    | _ => []
  | .symbolAs _ symbol name => ((symbols.resolve? symbol).map fun q => (name, q)).toList
  | .symbol _ symbol => ((symbols.resolve? symbol).map fun q => (symbol, q)).toList
  | .moduleAs _ name => symbols.exported.map fun (member, q) => (name ++ "." ++ member, q)
  | .module source => symbols.exported.map fun (member, q) => (source ++ "." ++ member, q)

/-- Binds the names of module `found` in module `id`, as the clause says. -/
def bindModule (id found : Nat) (path : Path) (number : Nat) (form : ImportForm) (b : Build) :
    Build :=
  let b := b.modifyModule id (·.addDependency form.source)
  let b := b.bindAll id (importedNames b.wildcard (b.symbolsOf found) form)
  match form with
  | .wildcard source => if b.wildcard = .bind then b else b.reportAt (.idleWildcard source) path number
  | _ => b

/-- Records a clause whose module is outside the program. -/
def bindExternal (id : Nat) (path : Path) (number : Nat) (form : ImportForm) (topLevel : Bool)
    (b : Build) : Build :=
  match form.binding? with
  | some (name, target) => if topLevel then b.bindExternalName id name target path number else b
  | none => b

/-- Is the clause a wildcard? -/
def ImportForm.isWildcard : ImportForm → Bool
  | .wildcard _ => true
  | _ => false

/-- What one clause of an import in module `id` does. -/
def bindImport (scanPath : Path → Scan Nat) (id : Nat) (path : Path) (number : Nat)
    (topLevel : Bool) (form : ImportForm) : Scan Unit := do
  if form.isFuture then
    Scan.update (·.addFuture form.render)
  else if form.isWildcard && (← get).wildcard = .deny then
    throw (.wildcardDenied form.source path number)
  else
    match ← resolveModule scanPath form.source with
    | some found => Scan.update (bindModule id found path number form)
    | none => Scan.update (bindExternal id path number form topLevel)

/-- The clauses of an import that starts a line and is followed by a semicolon. -/
def joinedForms (lexed : LexedLine) : List ImportForm :=
  if lexed.tokens.any (·.kind = .semi) then
    (classify? (lexed.tokens.takeWhile (·.kind ≠ .semi))).getD []
  else []

/-- Reports clauses that would be inlined if they had a line of their own. -/
def reportJoined (path : Path) (number : Nat) (forms : List ImportForm) (b : Build) : Build :=
  (forms.filter fun form => b.table.contains form.source).foldl
    (fun b form => b.reportAt (.joinedImport form) path number) b

/-- Records the declarations of a line of code, and reports an import it holds. -/
def scanCode (id : Nat) (path : Path) (number : Nat) (lexed : LexedLine) (b : Build) : Build :=
  reportJoined path number (joinedForms lexed) ((declaredNames lexed).foldl (·.declare id ·) b)

/-- Records a statement of module `id`. -/
def scanStatement (scanPath : Path → Scan Nat) (id : Nat) (path : Path) :
    Statement → Scan Unit
  | .code number _ lexed => Scan.update (scanCode id path number lexed)
  | .imports number _ forms topLevel => forms.forM (bindImport scanPath id path number topLevel)

/-- The module of a file that was read, with the scope it gets. -/
def newModule (b : Build) (full : Path) (source : List Char) : Module :=
  let name := moduleName full
  { name, scope := b.freeScope (scopeOf name), path := full, source := String.ofList source }

/-- Adds the module of a file that was read, before any of its statements. -/
def openModule (full : Path) (source : List Char) (b : Build) : Build × Nat :=
  let m := newModule b full source
  ((b.claimScope (scopeOf m.name)).markVisited m.name).addModule m

/-- Scans the file at a path and returns the number of its module; a file that was scanned before is not
read again.  `depth` bounds how deep files may import each other. -/
def scanFile (tree : FileTree) (depth : Nat) (given : Path) : Scan Nat := do
  match depth with
  | 0 => throw (.nesting given)
  | depth + 1 =>
    let full := tree.canonical given
    match (← get).graph.byPath? full with
    | some id => return id
    | none =>
      match tree.readText full with
      | .error cause => throw (.unreadableSource given full cause)
      | .ok source =>
        let id ← modifyGet fun b => ((openModule full source b).2, (openModule full source b).1)
        (statements source).forM (scanStatement (scanFile tree depth) id full)
        return id

/-- Scans the file at a path and all that it imports. -/
def scan (tree : FileTree) (given : Path) : Scan Nat := do
  scanFile tree ((← get).table.entries.length + 2) given

/-- The result of scanning a path, and the build it leaves. -/
def Build.scanPath (b : Build) (tree : FileTree) (given : Path) : Except Fault Nat × Build :=
  (scan tree given).run.run b

end Amalgam
