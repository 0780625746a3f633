import Amalgam.Path
import Amalgam.Symbol.Table

/-!
# Modules

What is known about one source file of a program: the name it is imported under, the **scope** that
prefixes its declarations (an ASCII identifier that no other module of the build has), its canonical path,
its text, its symbols, and the modules it imports.

## Main definitions

* `Module`, `Module.addDependency`, `Module.fileName`
* `moduleName` — the name a file is imported under
* `scopeOf` — the scope a module name asks for
-/

namespace Amalgam

/-- One source file of a program. -/
structure Module where
  name : String
  scope : String
  path : Path
  source : String
  symbols : SymbolTable := {}
  /-- The names of imported modules of the program, in order of first import. -/
  dependencies : List String := []
  deriving DecidableEq, Repr

namespace Module

/-- Records an import; the module's own name and repetitions are ignored. -/
def addDependency (m : Module) (name : String) : Module :=
  if name = m.name then m else { m with dependencies := insertLast m.dependencies name }

/-- The file name shown above the module's text. -/
def fileName (m : Module) : String :=
  m.path.fileName?.getD ""

/-- Records a declaration under the module's scope. -/
def declare (m : Module) (name : String) : Module :=
  { m with symbols := m.symbols.declare m.scope name }

/-- Makes names of other modules visible. -/
def bindAll (m : Module) (pairs : List (String × String)) : Module :=
  { m with symbols := m.symbols.bindAll pairs }

end Module

/-- The file stem that stands for its directory. -/
def packageStem : String := "__init__"

/-- The name a file is imported under: its stem, or the name of its directory for the file that makes a
directory a package. -/
def moduleName (p : Path) : String :=
  let stem := p.stem?.getD ""
  if stem = packageStem then (p.parent?.bind Path.fileName?).getD stem else stem

/-- Is the character one of an ASCII identifier? -/
def isScopeChar (c : Char) : Bool :=
  c == '_' || c.isAlphanum

/-- The scope a module name asks for: its ASCII identifier characters, with an underscore before a leading
digit, and a fixed word if there are none. -/
def scopeOf (name : String) : String :=
  match name.toList.filter isScopeChar with
  | [] => "_module"
  | c :: cs => String.ofList (if c.isDigit then '_' :: c :: cs else c :: cs)

end Amalgam
