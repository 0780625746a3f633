import Amalgam.Script.Builtin.Jobs
import Amalgam.Script.Builtin.Allowances
import Amalgam.Script.Format
import Amalgam.Script.Mode
import Amalgam.Script.Test
import Amalgam.Script.Utility

/-!
# Commands for texts and places

Commands of a shell that show texts, look at things, and change the working directory.
-/

namespace Amalgam.Script

def echoCommand : Utility := fun _ _ args => do
  let (quiet, words) := match args with
    | ['-', 'n'] :: rest => (true, rest)
    | _ => (false, args)
  let (text, stopped) := unescapedWords words
  say (if quiet || stopped then text else asLine text)
  return 0

def printfCommand : Utility := fun _ _ args => do
  let (_, operands) ← leadingOptions "" args
  match operands with
  | [] => abort "usage: printf format [arg ...]".toList
  | form :: args =>
    formatArguments form args

def testCommand : Utility := fun _ name args => do
  let args ← if name.getLast? = some '[' then
      if args.getLast? = some [']'] then pure args.dropLast else abort "missing ]".toList
    else pure args
  return if ← testArguments (args.length + 1) args then 0 else 1

/-! ### Places -/

/-- The path of the working directory, with the links that led there. -/
def Shell.currentDir (s : Shell) : Text :=
  let physical := ofString (Path.ofLocation s.tree.workdir).text
  match s.value? "PWD".toList with
  | some t =>
    if t.head? = some '/' ∧ (s.tree.locate (toPath t)).toOption = some s.tree.workdir then t else physical
  | none => physical

/-- A path without dots, where two dots take the name before them away. -/
def simplified (path : Text) : Text :=
  let names := (splitAt '/' path).foldl
    (fun (names : List Text) name =>
      if name = [] ∨ name = ['.'] then names
      else if name = ['.', '.'] then names.drop 1
      else name :: names)
    []
  match names with
  | [] => ['/']
  | _ => names.reverse.flatMap fun name => '/' :: name

def enter (physical : Bool) (dest : Text) : Run Bool := do
  let s ← get
  let old := s.currentDir
  let full := if dest.head? = some '/' then dest else old ++ '/' :: dest
  let path := if physical then dest else simplified full
  if !s.tree.isDir (toPath path) then return false
  match s.tree.locate (toPath path) with
  | .error _ => return false
  | .ok loc =>
    set { s with
      tree := { s.tree with workdir := loc }
      known := s.known.map fun (entry : Text × KnownProgram) => (entry.1, { entry.2 with stale := true }) }
    let shown := if physical then ofString (Path.ofLocation loc).text else path
    for (name, value) in [("OLDPWD".toList, old), ("PWD".toList, shown)] do
      setVariable name value
      exportVariable name
    return true

/-- Does a path start at the root, or with dots that say where it starts? -/
def isAnchored (path : Text) : Bool :=
  path.head? == some '/' || (splitAt '/' path).head? == some ['.'] ||
    (splitAt '/' path).head? == some ['.', '.']

/-- The directory among those of a search path that a path means, and whether that is to be shown. -/
def Shell.foundDir? (s : Shell) (dest : Text) : Option (Text × Bool) :=
  (s.value? "CDPATH".toList).bind fun path =>
    (splitAt ':' path).findSome? fun dir =>
      let full := if dir.isEmpty then dest else dir ++ '/' :: dest
      if s.tree.isDir (toPath full) then some (full, !dir.isEmpty) else none

def cdCommand : Utility := fun _ _ args => do
  let (options, operands) ← leadingOptions "LP" args
  let physical := options.getLast? == some 'P'
  let s ← get
  let (dest, shown) := match operands with
    | [] => ((s.value? "HOME".toList).getD [], false)
    | ['-'] :: _ => ((s.value? "OLDPWD".toList).getD [], true)
    | dest :: _ => (dest, false)
  let dest := if dest.isEmpty then ['.'] else dest
  let (path, found) := if isAnchored dest && !(operands.headD []).isEmpty then (dest, false)
    else (s.foundDir? dest).getD (dest, false)
  if ← enter physical path then
    if shown || found then say (asLine (← get).currentDir)
    return 0
  abort ("can't cd to ".toList ++ dest)

def pwdCommand : Utility := fun _ _ args => do
  let (options, _) ← leadingOptions "LP" args
  let s ← get
  let physical := options.getLast? == some 'P'
  let shown := if physical then ofString (Path.ofLocation s.tree.workdir).text else s.currentDir
  say (asLine shown)
  return 0

def rightsText (rights : Nat) : Text :=
  let letters (bits : Nat) : Text := (rightLetters bits none).filter (· != '-')
  "u=".toList ++ letters (rights / 64) ++ ",g=".toList ++ letters (rights / 8) ++ ",o=".toList ++
    letters rights

def readMask (mask : Nat) (t : Text) : Run Nat := do
  match t with
  | [] => return mask
  | c :: _ =>
    if c.isDigit then
      if t.all isOctal then return numberIn 8 t % 512
      abort ("Illegal number: ".toList ++ t)
    let body := if t.getLast? = some ',' then t.dropLast else t
    match if t.contains 't' then none else readMode? body with
    | none => abort ("Illegal mode: ".toList ++ t)
    | some changes =>
      let rights := withoutBits 0o777 mask
      let new := changes.foldl (fun now change => change.apply 0 false rights now) rights
      return withoutBits 0o777 new

def umaskCommand : Utility := fun _ _ args => do
  let (options, operands) ← leadingOptions "S" args
  let mask := (← get).tree.mask
  match operands with
  | [] =>
    say (asLine (if options.isEmpty then octal 4 mask else rightsText (withoutBits 0o777 mask)))
  | t :: _ =>
    let mask ← readMask mask t
    modify fun s => { s with tree := { s.tree with mask } }
  return 0

/-! ### Names -/

def shortcutText (name text : Text) : Text :=
  name ++ '=' :: singleQuoted text

def meaningOf (name : Text) : Run Meaning := do
  let s ← get
  let meaning := s.meaning name
  match meaning with
  | .program _ index false => set (s.know name index)
  | _ => pure ()
  return meaning

def typeCommand : Utility := fun _ _ args =>
  args.foldlM
    (fun status name => do
      let (text, found) : Text × Bool := match ← meaningOf name with
        | .keyword => (" is a shell keyword".toList, true)
        | .shortcut text => (" is an alias for ".toList ++ text, true)
        | .function => (" is a shell function".toList, true)
        | .special => (" is a special shell builtin".toList, true)
        | .builtin => (" is a shell builtin".toList, true)
        | .file path | .program path _ false => (" is ".toList ++ path, true)
        | .program path _ true => (" is a tracked alias for ".toList ++ path, true)
        | .nothing => (": not found".toList, false)
      say (asLine (name ++ text))
      return if found then status else 127)
    0

def showMeaning (name : Text) : Run Nat := do
  match ← meaningOf name with
  | .nothing => return 127
  | .file path | .program path _ _ =>
    say (asLine path)
    return 0
  | .shortcut text =>
    say (asLine ("alias ".toList ++ shortcutText name text))
    return 0
  | _ =>
    say (asLine name)
    return 0

def describeCommand : Utility := fun e self args => do
  let (options, operands) ← leadingOptions "pvV" args
  match operands with
  | [] => return 0
  | name :: _ =>
    let describe : Run Nat := if options.contains 'V' then typeCommand e self [name] else showMeaning name
    if options.contains 'p' then
      let s ← get
      set { s.put searchPathName { value := some standardPath } with known := [] }
      let status ← describe
      modify fun now => { now with vars := s.vars, known := s.known }
      return status
    else describe

def Shell.isSought (s : Shell) (name : Text) : Bool :=
  let spelling := String.ofList name
  !(name.contains '/' || (s.functions.lookup name).isSome || specialCommands.contains spelling ||
    plainBuiltins.contains spelling)

def hashCommand : Utility := fun _ _ args => do
  let (options, operands) ← leadingOptions "r" args
  if options.contains 'r' then
    modify fun s => { s with known := [] }
    return 0
  let s ← get
  if operands.isEmpty then
    for (name, program) in s.known.mergeSort (fun a b => nameRank 31 a.1 ≤ nameRank 31 b.1) do
      let path := (candidates s.searchPath name).getD program.index name
      say (asLine (if program.stale then path ++ ['*'] else path))
  operands.foldlM
    (fun status name => do
      if !(← get).isSought name then return status
      modify (·.forget name)
      match ← findProgram name with
      | some _ => return status
      | none =>
        complainMissing name (candidates s.searchPath name)
        return 1)
    0

def aliasCommand : Utility := fun _ self args => do
  if args.isEmpty then
    for (name, text) in (← get).shortcuts.mergeSort (fun a b => nameRank 39 a.1 ≤ nameRank 39 b.1) do
      say (asLine (shortcutText name text))
  args.foldlM
    (fun status word => do
      let name := word.takeWhile (· != '=')
      match if name.isEmpty then [] else word.drop name.length with
      | _ :: text =>
        modify fun s => { s with shortcuts := putNamed name text s.shortcuts }
        return status
      | [] =>
        match (← get).shortcuts.lookup word with
        | some text =>
          say (asLine (shortcutText word text))
          return status
        | none => toolFails self 1 (word ++ " not found".toList))
    0

def unaliasCommand : Utility := fun _ self args => do
  let (options, operands) ← leadingOptions "a" args
  if options.contains 'a' then
    modify fun s => { s with shortcuts := [] }
    return 0
  operands.foldlM
    (fun status name => do
      let s ← get
      match s.shortcuts.lookup name with
      | some _ =>
        set { s with shortcuts := s.shortcuts.filter (·.1 != name) }
        return status
      | none => toolFails self 1 (name ++ " not found".toList))
    0

/-- Shows how much time the shell and its children have used, which is not known. -/
def timesCommand : Utility := fun _ _ _ => do
  say (asLine "0m0.000000s 0m0.000000s".toList ++ asLine "0m0.000000s 0m0.000000s".toList)
  return 0

def endWith (status : Nat) : Utility := fun _ _ _ =>
  return status

end Amalgam.Script
