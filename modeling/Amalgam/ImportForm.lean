/-!
# Import forms

An import statement is a list of clauses; each clause is one of five forms.  A form can be written back
as a statement of its own, and a list of forms as one line with semicolons between them, so a part of a
statement's clauses can be kept when the others go.

## Main definitions

* `ImportForm` — the five forms
* `ImportForm.source` — the module a form names
* `ImportForm.binding?` — the name a form binds at module level, and what it stands for
* `ImportForm.render`, `renderForms` — forms as source text
-/

namespace Amalgam

/-- One clause of an import statement. -/
inductive ImportForm where
  /-- `from source import *` -/
  | wildcard (source : String)
  /-- `from source import symbol as name` -/
  | symbolAs (source symbol name : String)
  /-- `from source import symbol` -/
  | symbol (source symbol : String)
  /-- `import source as name` -/
  | moduleAs (source name : String)
  /-- `import source` -/
  | module (source : String)
  deriving DecidableEq, Repr

namespace ImportForm

/-- The module the form imports from. -/
def source : ImportForm → String
  | wildcard m => m
  | symbolAs m _ _ => m
  | symbol m _ => m
  | moduleAs m _ => m
  | module m => m

/-- Is it a plain `import`?  One such line for each external module heads the combined program, so no
other trace of the form has to stay. -/
def isPlain : ImportForm → Bool
  | module _ => true
  | _ => false

/-- The module whose import is a directive to the compiler. -/
def futureModule : String := "__future__"

/-- Is it a directive, which is only valid at the start of a file? -/
def isFuture (form : ImportForm) : Bool :=
  form.source == futureModule && !form.isPlain

/-- The name the form binds at module level, and what it refers to.  A wildcard and a plain import bind
no single chosen name. -/
def binding? : ImportForm → Option (String × String)
  | wildcard _ => none
  | symbolAs m s a => some (a, m ++ "." ++ s)
  | symbol m s => some (s, m ++ "." ++ s)
  | moduleAs m a => some (a, m)
  | module _ => none

/-- The form as a statement. -/
def render : ImportForm → String
  | wildcard m => "from " ++ m ++ " import *"
  | symbolAs m s a => "from " ++ m ++ " import " ++ s ++ " as " ++ a
  | symbol m s => "from " ++ m ++ " import " ++ s
  | moduleAs m a => "import " ++ m ++ " as " ++ a
  | module m => "import " ++ m

end ImportForm

/-- The forms as one line, a semicolon between them. -/
def renderForms (forms : List ImportForm) : String :=
  "; ".intercalate (forms.map ImportForm.render)

end Amalgam
