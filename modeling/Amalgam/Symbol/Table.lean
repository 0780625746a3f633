import Amalgam.NameMap

/-!
# Symbol tables

What names mean in one module.  A module's own declarations have **qualified** names, its scope and the
name with a dot between; names taken from other modules are seen under an alias, which may itself be
dotted (`util.helper` after `import util`).  Own names shadow seen ones.

## Main definitions

* `qualify` — scope and name with a dot between
* `SymbolTable`, `SymbolTable.declare`, `SymbolTable.bind`
* `SymbolTable.resolve?` — what a name means
* `SymbolTable.exported` — the names another module reaches
-/

namespace Amalgam

/-- The qualified name of a declaration. -/
def qualify (scope name : String) : String :=
  scope ++ "." ++ name

/-- The names of one module, each with a qualified name. -/
structure SymbolTable where
  /-- Names the module declares. -/
  own : NameMap String := {}
  /-- Aliases of names of other modules. -/
  seen : NameMap String := {}
  deriving DecidableEq, Repr

namespace SymbolTable

/-- Records a declaration. -/
def declare (t : SymbolTable) (scope name : String) : SymbolTable :=
  { t with own := t.own.insert name (qualify scope name) }

/-- Makes a name of another module visible under an alias. -/
def bind (t : SymbolTable) (name qualified : String) : SymbolTable :=
  { t with seen := t.seen.insert name qualified }

/-- Makes several names visible. -/
def bindAll (t : SymbolTable) (pairs : List (String × String)) : SymbolTable :=
  pairs.foldl (fun t (name, qualified) => t.bind name qualified) t

/-- What a name means in the module. -/
def resolve? (t : SymbolTable) (name : String) : Option String :=
  t.own.find? name <|> t.seen.find? name

/-- Is the name free of dots? -/
def undotted (name : String) : Bool :=
  !name.toList.contains '.'

/-- The names that another module reaches after importing this one: the declarations, then the undotted
aliases that no declaration shadows. -/
def exported (t : SymbolTable) : List (String × String) :=
  t.own.entries ++ t.seen.entries.filter fun (name, _) => undotted name && !t.own.contains name

end SymbolTable

end Amalgam
