import Amalgam.Build.Scan
import Amalgam.ClassBlock
import Amalgam.Renaming

/-!
# The combined program

The combined program is one text: the compiler directives of all modules, an `import` line for each module
outside the program, and then the modules in order, each under a comment that names it.  Code is renamed;
imports of modules of the program go, and so do plain imports and directives, which are at the top already.
An import that is indented may depend on a condition and stays as it is.

## Main definitions

* `keptForms` — the clauses of an import that stay
* `writeStatement`, `writeModule`, `Build.write` — the text
* `Combined`, `combine` — a program combined from an entry file
-/

namespace Amalgam

/-- A line with its newline. -/
def endLine (line : List Char) : List Char :=
  line ++ ['\n']

/-- The clauses that still bind a name from outside the program. -/
def keptForms (externals : List String) (forms : List ImportForm) : List ImportForm :=
  forms.filter fun form => externals.contains form.source && !form.isPlain && !form.isFuture

/-- The text of a line of code, in a class body or not. -/
def writeCode (rules : Renaming) (lexed : LexedLine) (inBody : Bool) : List Char :=
  endLine (rules.line (if inBody then (definedTokens lexed).map Token.start else []) lexed)

/-- The text of an import statement. -/
def writeImport (externals : List String) (lines : List (List Char)) (forms : List ImportForm)
    (topLevel : Bool) : List Char :=
  if topLevel then
    match keptForms externals forms with
    | [] => []
    | kept => endLine (renderForms kept).toList
  else lines.flatMap endLine

/-- The text of a statement and the class blocks open after it. -/
def writeStatement (rules : Renaming) (externals : List String) (blocks : List ClassBlock) :
    Statement → List ClassBlock × List Char
  | .code _ line lexed =>
    if lexed.startsInString then (blocks, writeCode rules lexed false)
    else
      let (blocks, inBody) := ClassBlock.enter blocks line (lexed.first? == some .classWord)
      (blocks, writeCode rules lexed inBody)
  | .imports _ lines forms topLevel =>
    ((ClassBlock.enter blocks (lines.head?.getD []) false).1,
      writeImport externals lines forms topLevel)

/-- The text of statements, from the class blocks open before them. -/
def writeStatements (rules : Renaming) (externals : List String) :
    List ClassBlock → List Statement → List Char
  | _, [] => []
  | blocks, s :: rest =>
    let (blocks, text) := writeStatement rules externals blocks s
    text ++ writeStatements rules externals blocks rest

/-- The comment above a module. -/
def moduleComment (m : Module) : List Char :=
  ("# coiler: " ++ m.scope ++ " (" ++ m.fileName ++ ")").toList

/-- The text of a module. -/
def writeModule (b : Build) (m : Module) : List Char :=
  endLine (moduleComment m) ++
    writeStatements (.ofTable m.symbols b.registry) b.externals [] (statements m.source.toList)

/-- The text of the combined program.  Without an order of emission it is only what stands at the
top. -/
def Build.write (b : Build) : List Char :=
  b.futures.flatMap (fun clause => endLine clause.toList) ++
    b.externals.flatMap (fun name => endLine ("import " ++ name).toList) ++
    b.emissionOrder.flatMap fun id => ((b.graph.module? id).map (writeModule b)).getD []

/-- A combined program, and the build that gave it. -/
structure Combined where
  source : String
  build : Build
  deriving DecidableEq, Repr

/-- The directory of an entry file. -/
def entryDirectory (tree : FileTree) (entry : Path) : Path :=
  (tree.canonical entry).parent?.getD ⟨"."⟩

/-- Combines a program: scans the entry file and all it imports, settles the order, and writes the
text. -/
def combine (tree : FileTree) (entry : Path) (start : Build) : Except Fault Combined :=
  match start.scanPath tree entry with
  | (.error fault, _) => .error fault
  | (.ok _, scanned) =>
    match scanned.finish with
    | (.error fault, _) => .error fault
    | (.ok (), finished) => .ok ⟨String.ofList finished.write, finished⟩

end Amalgam
