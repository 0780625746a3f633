/-!
# Policies

The three choices a build leaves open, each with the word that stands for it in settings and on the
command line.

## Main definitions

* `SearchMode` — where modules are looked for
* `WildcardPolicy` — what `from m import *` does
* `CyclePolicy` — what a cycle of imports does
* `UnknownPolicy`, `UnknownPolicy.message` — a word that stands for no choice
-/

namespace Amalgam

/-- The directories in which modules are looked for. -/
inductive SearchMode where
  /-- The entry's directory and the configured ones. -/
  | near
  /-- Those, and then the interpreter's own. -/
  | all
  deriving DecidableEq, Repr

/-- What a wildcard import of a module of the program does. -/
inductive WildcardPolicy where
  /-- Binds nothing and is reported. -/
  | warn
  /-- Ends the build. -/
  | deny
  /-- Binds every public name of the module. -/
  | bind
  deriving DecidableEq, Repr

/-- What a cycle of imports does. -/
inductive CyclePolicy where
  /-- Ends the build. -/
  | reject
  /-- Loses the edge that closes it. -/
  | cut
  deriving DecidableEq, Repr

/-- A word that should stand for a policy and does not. -/
inductive UnknownPolicy where
  | mode (word : String)
  | wildcard (word : String)
  | cycles (word : String)
  deriving DecidableEq, Repr

/-- The text of the error. -/
def UnknownPolicy.message : UnknownPolicy → String
  | mode word => "unknown search mode '" ++ word ++ "' (expected 'local' or 'all')"
  | wildcard word =>
    "unknown wildcard policy '" ++ word ++ "' (expected 'warn', 'deny' or 'bind')"
  | cycles word => "unknown cycle policy '" ++ word ++ "' (expected 'reject' or 'break')"

namespace SearchMode

/-- The word for a mode. -/
def word : SearchMode → String
  | near => "local"
  | all => "all"

/-- The mode a word stands for; `user` is another word for the first. -/
def ofWord? (word : String) : Option SearchMode :=
  if word = "local" ∨ word = "user" then some near
  else if word = "all" then some all
  else none

/-- The mode a word stands for. -/
def parse (word : String) : Except UnknownPolicy SearchMode :=
  match ofWord? word with
  | some mode => .ok mode
  | none => .error (.mode word)

end SearchMode

namespace WildcardPolicy

/-- The word for a policy. -/
def word : WildcardPolicy → String
  | warn => "warn"
  | deny => "deny"
  | bind => "bind"

/-- The policy a word stands for. -/
def ofWord? (word : String) : Option WildcardPolicy :=
  if word = "warn" then some warn
  else if word = "deny" then some deny
  else if word = "bind" then some bind
  else none

/-- The policy a word stands for. -/
def parse (word : String) : Except UnknownPolicy WildcardPolicy :=
  match ofWord? word with
  | some policy => .ok policy
  | none => .error (.wildcard word)

end WildcardPolicy

namespace CyclePolicy

/-- The word for a policy. -/
def word : CyclePolicy → String
  | reject => "reject"
  | cut => "break"

/-- The policy a word stands for. -/
def ofWord? (word : String) : Option CyclePolicy :=
  if word = "reject" then some reject
  else if word = "break" then some cut
  else none

/-- The policy a word stands for. -/
def parse (word : String) : Except UnknownPolicy CyclePolicy :=
  match ofWord? word with
  | some policy => .ok policy
  | none => .error (.cycles word)

end CyclePolicy

end Amalgam
