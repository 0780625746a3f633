import Amalgam.NameMap

/-!
# The registry of identifiers

Every qualified name of a build gets one identifier of the combined program: the name with its first dot
written as two underscores, or that with a number added when another name already has it.  Registering is
idempotent, and no two names share an identifier.  The registry leads both ways: from a name to its
identifier, and from an identifier in use to the name that owns it.

## Main definitions

* `flatten` — the identifier a name gets when it is free
* `Registry`, `Registry.register`
* `Registry.get?`, `Registry.owner?`, `Registry.identifierOf`
-/

namespace Amalgam

/-- A text with two underscores for its first dot. -/
def flattenChars : List Char → List Char
  | [] => []
  | c :: cs => if c = '.' then '_' :: '_' :: cs else c :: flattenChars cs

/-- A qualified name with two underscores for its first dot. -/
def flatten (qualified : String) : String :=
  String.ofList (flattenChars qualified.toList)

/-- Qualified names and their identifiers. -/
structure Registry where
  /-- The names with their identifiers, in order of registration. -/
  entries : List (String × String) := []
  /-- The identifiers in use, with the names they belong to. -/
  owners : List (String × String) := []
  deriving DecidableEq, Repr

namespace Registry

/-- The identifier of a registered name. -/
def get? (r : Registry) (qualified : String) : Option String :=
  r.entries.lookup qualified

/-- The name that an identifier belongs to. -/
def owner? (r : Registry) (identifier : String) : Option String :=
  r.owners.lookup identifier

/-- The identifiers in use. -/
def identifiers (r : Registry) : List String :=
  r.owners.map Prod.fst

/-- Gives a name its identifier, unless it has one, and the identifier its owner. -/
def register (r : Registry) (qualified : String) : Registry :=
  if (r.get? qualified).isSome then r
  else
    let identifier := freshName r.identifiers (flatten qualified)
    { entries := r.entries ++ [(qualified, identifier)]
      owners := r.owners ++ [(identifier, qualified)] }

/-- The identifier of a name; one that is not registered is only flattened. -/
def identifierOf (r : Registry) (qualified : String) : String :=
  (r.get? qualified).getD (flatten qualified)

end Registry

end Amalgam
