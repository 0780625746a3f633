import Amalgam.Script.Expand

/-!
# Redirection

Where a command reads and writes.  The names of targets are expanded before any of them is opened; the first
one that cannot be opened ends the redirection.
-/

namespace Amalgam.Script

/-- The words for an error of a file that a command reads or writes. -/
def openErrorText (writing : Bool) : OsError → String
  | .notFound | .notDirectory => if writing then "Directory nonexistent" else "No such file"
  | e => e.text

def refuseOpen (writing : Bool) (path : Text) (e : OsError) : Run Bool := do
  let verb := if writing then "cannot create " else "cannot open "
  complain (verb.toList ++ path ++ ": ".toList ++ (openErrorText writing e).toList)
  return false

/-- Is the path that of a file which must not be overwritten? -/
def isProtected (s : Shell) (kind : RedirectKind) (path : Text) : Bool :=
  kind == .write && s.has 'C' && s.tree.isFile (toPath path)

/-- Redirects a descriptor to a document of the script, and says whether that is possible: a fault in the
text of the document makes it impossible. -/
def openDocument (e : Engine) (fd index : Nat) : Run Bool := do
  let word := ((← get).documents[index]?).getD []
  tryCatch
    (do
      setDescriptor fd (← addChannel (.ofText (← expandText e word)))
      return true)
    fun
      | .fault => return false
      | stop => throw stop

/-- Redirects a descriptor to what a text names, and says whether that is possible. -/
def openTarget (e : Engine) (fd : Nat) (kind : RedirectKind) (target : Text) : Run Bool := do
  match kind with
  | .document index => openDocument e fd index
  | .duplicate =>
    match target with
    | ['-'] =>
      closeDescriptor fd
      return true
    | [c] =>
      if c.isDigit then
        match (← get).descriptors.lookup (c.toNat - 48) with
        | some id =>
          setDescriptor fd id
          return true
        | none =>
          complain (c :: ": Bad file descriptor".toList)
          return false
      else abort "Syntax error: Bad fd number".toList
    | _ => abort "Syntax error: Bad fd number".toList
  | _ =>
    let writing := kind != .read
    if isProtected (← get) kind target then refuseOpen true target .alreadyThere
    else
      match ← openFile target kind with
      | .ok id =>
        setDescriptor fd id
        return true
      | .error e => refuseOpen writing target e

def targetText (e : Engine) : Redirect → Run (Nat × RedirectKind × Text)
  | .to fd kind target => do
    match kind with
    | .document _ => return (fd, kind, [])
    | _ => return (fd, kind, ← expandText e target)

def openTargets (e : Engine) : List (Nat × RedirectKind × Text) → Run Bool
  | [] => return true
  | (fd, kind, target) :: rest => do
    if ← openTarget e fd kind target then openTargets e rest else return false

def redirect (e : Engine) (redirects : List Redirect) : Run Bool := do
  let targets ← redirects.mapM (targetText e)
  openTargets e targets

def Redirect.descriptor : Redirect → Nat
  | .to fd _ _ => fd

/-- Runs an action after which the descriptors that redirections change lead to where they led before. -/
def keepingDescriptors {α : Type} (redirects : List Redirect) (body : Run α) : Run α := do
  let fds := redirects.map Redirect.descriptor
  let saved := (← get).descriptors.filter fun (fd, _) => fds.contains fd
  let restore : Run Unit := modify fun s =>
    { s with descriptors := saved ++ s.descriptors.filter fun (fd, _) => !fds.contains fd }
  let result ← tryCatch body fun stop => do
    restore
    throw stop
  restore
  return result

end Amalgam.Script
