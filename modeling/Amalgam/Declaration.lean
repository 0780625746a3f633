import Amalgam.Line

/-!
# Declarations

The names a statement defines: the name after `class`, `def` or `async def`, the target of an annotated
assignment, or the targets of a chain of assignments `a, b = c = …`.  A definition in the first column is
a **declaration** of the module, unless the name is a keyword or one of the attributes that the
interpreter itself sets.

## Main definitions

* `assignedTokens` — the targets of a chain of assignments
* `definedTokens` — the tokens a line defines, at any indentation
* `declaredNames` — the names a line declares for its module
-/

namespace Amalgam

/-- The targets of a chain of assignments.  `group` holds the names read since the last assignment sign,
and `nameNext` says whether a name may come next.  A group counts only once its assignment sign is read;
a comma may stand before that sign. -/
def assignedFrom (group : List Token) (nameNext : Bool) : List Token → List Token
  | [] => []
  | t :: rest =>
    match t.kind with
    | .ident => if nameNext then assignedFrom (group ++ [t]) false rest else []
    | .comma => if nameNext then [] else assignedFrom group true rest
    | .assign => if group = [] then [] else group ++ assignedFrom [] true rest
    | _ => []

/-- The targets of the assignments a line starts with. -/
def assignedTokens (tokens : List Token) : List Token :=
  match tokens with
  | t@⟨.ident, _, _⟩ :: ⟨.colon, _, _⟩ :: rest =>
    if rest.any (·.kind = .assign) then [t] else []
  | _ => assignedFrom [] true tokens

/-- The tokens that name what a line defines, at any indentation. -/
def definedTokens (line : LexedLine) : List Token :=
  if line.startsInString then []
  else
    match line.tokens with
    | ⟨.classWord, _, _⟩ :: t@⟨.ident, _, _⟩ :: _ => [t]
    | ⟨.defWord, _, _⟩ :: t@⟨.ident, _, _⟩ :: _ => [t]
    | ⟨.asyncWord, _, _⟩ :: ⟨.defWord, _, _⟩ :: t@⟨.ident, _, _⟩ :: _ => [t]
    | tokens => assignedTokens tokens

/-- Module attributes the interpreter sets on its own; assigning one declares nothing. -/
def interpreterNames : List String :=
  ["__name__", "__file__", "__doc__", "__spec__", "__loader__", "__package__", "__builtins__"]

/-- Can the name be declared by a module? -/
def isDeclarable (name : String) : Bool :=
  !isKeyword name && !interpreterNames.contains name

/-- The tokens that name a line's declarations. -/
def declaredTokens (line : LexedLine) : List Token :=
  if line.startsAtMargin then (definedTokens line).filter (isDeclarable ·.text) else []

/-- The names a line declares for its module, in order. -/
def declaredNames (line : LexedLine) : List String :=
  (declaredTokens line).map Token.text

end Amalgam
