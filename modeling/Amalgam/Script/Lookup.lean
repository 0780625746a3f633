import Amalgam.Script.Process

/-!
# Finding programs

A program is a file that may be run.  One that starts with `#!` names the program that runs it, which may be
such a file again.  A name without a slash is looked for in the directories of a search path.
-/

namespace Amalgam.Script

def isNul (c : Char) : Bool :=
  c.toNat == 0

def dropGapsEnd (t : Text) : Text :=
  (t.reverse.dropWhile isGap).reverse

/-- How much of a file is looked at to find out what runs it. -/
def headLength : Nat := 256

/-- The program that runs a file, and an argument for it, from the start of the file.  The name ends at a
blank, and all the rest of the line is one argument.  Without a line end a name has to end within the part
that is looked at, which is filled up with NUL. -/
def interpreterOf (content : Text) : Except OsError (Text × Option Text) :=
  if !"#!".toList.isPrefixOf content then .error .execFormat
  else
    let head := (content ++ List.replicate (headLength - content.length) (Char.ofNat 0)).take headLength
    let body := head.drop 2
    let line := body.takeWhile fun c => c != '\n' && !isNul c
    if body[line.length]? == some '\n' then
      let named := (dropGapsEnd line).dropWhile isGap
      if named.isEmpty then .error .execFormat
      else
        let rest := (named.dropWhile (!isGap ·)).dropWhile isGap
        .ok (named.takeWhile (!isGap ·), if rest.isEmpty then none else some rest)
    else
      let named := body.dropWhile isGap
      if !named.any fun c => isGap c || isNul c then .error .execFormat
      else
        let named := (dropGapsEnd body.dropLast).dropWhile isGap
        let name := named.takeWhile fun c => !isGap c && !isNul c
        let rest := named.drop name.length
        -- An empty name means the working directory, which cannot be run.
        if name.isEmpty then .error .permissionDenied
        else .ok (name,
          match rest with
          | c :: _ => if isGap c then some ((rest.dropWhile isGap).takeWhile (!isNul ·)) else none
          | [] => none)

def maxInterpreters : Nat := 5

/-- The program of the system that runs the file at a path, with the name that it is called by and its
arguments. -/
def programAt (tree : FileTree) : Nat → Text → List Text → Except OsError (String × List Text)
  | left, path, argv => do
    let loc ← tree.locate (toPath path)
    match tree.entry? loc with
    | some (.program name) => return (name, argv)
    | some (.file content true) =>
      let (interpreter, argument) ← interpreterOf (ofBytes content)
      match left with
      | 0 => .error .tooManyLinks
      | left + 1 =>
        programAt tree left interpreter (interpreter :: argument.toList ++ path :: argv.drop 1)
    | some _ => .error .permissionDenied
    | none => .error .notFound

def candidates (searchPath name : Text) : List Text :=
  if name.contains '/' then [name]
  else (splitAt ':' searchPath).map fun dir => if dir.isEmpty then name else dir ++ '/' :: name

/-- The first program that a name stands for.  Files that cannot be run are passed over, and are the reason
if there is no other. -/
def programNamed (tree : FileTree) (argv : List Text) (fault : OsError) :
    List Text → Except OsError (String × List Text)
  | [] => .error fault
  | path :: rest =>
    match programAt tree maxInterpreters path argv with
    | .ok found => .ok found
    | .error .notFound | .error .notDirectory => programNamed tree argv fault rest
    | .error .permissionDenied => programNamed tree argv .permissionDenied rest
    | .error e => .error e

/-- The directories in which programs are looked for if nothing else is said. -/
def standardPath : Text :=
  "/usr/local/sbin:/usr/local/bin:/usr/sbin:/usr/bin:/sbin:/bin".toList

/-- The directories in which a shell looks for programs. -/
def Shell.searchPath (s : Shell) : Text :=
  (s.value? searchPathName).getD []

/-- The directories in which a program looks for one that it starts. -/
def Shell.toolPath (s : Shell) : Text :=
  (s.value? searchPathName).getD "/bin:/usr/bin".toList

def Shell.fileNamed? (s : Shell) (name : Text) : Option Text :=
  (candidates s.searchPath name).find? fun path => s.tree.isFile (toPath path)

/-! ### Known programs -/

def isRunnable (tree : FileTree) (path : Text) : Bool :=
  match tree.entryAt? (toPath path) with
  | some (.file _ executable) => executable
  | some (.program _) => true
  | _ => false

/-- The place of the first of some paths that can be run.  If one of them was found before, those from the root
are not looked at again up to there. -/
def programIndex? (tree : FileTree) (before : Option Nat) (paths : List Text) : Option Nat :=
  paths.zipIdx.findSome? fun (path, i) =>
    let same := path.head? == some '/' && before == some i
    let passed := path.head? == some '/' && before.any (i < ·)
    if same || (!passed && isRunnable tree path) then some i else none

def Shell.know (s : Shell) (name : Text) (index : Nat) : Shell :=
  { s with known := putNamed name { index } s.known }

/-- The state of a shell that does not know where a program is. -/
def Shell.forget (s : Shell) (name : Text) : Shell :=
  { s with known := s.known.filter (·.1 != name) }

/-- Where a shell finds a program without a slash in its name, which it knows from then on. -/
def findProgram (name : Text) : Run (Option Nat) := do
  let s ← get
  let search (before : Option Nat) : Run (Option Nat) := do
    match programIndex? s.tree before (candidates s.searchPath name) with
    | some index =>
      set (s.know name index)
      return some index
    | none =>
      set (s.forget name)
      return none
  match s.known.lookup name with
  | some program => if program.stale then search (some program.index) else return some program.index
  | none => search none

def missingFault (tree : FileTree) (paths : List Text) : OsError :=
  if paths.any fun path => tree.present (toPath path) then .permissionDenied else .notFound

/-! ### Commands of a shell -/

/-- Commands that belong to the shell itself and are not special. -/
def plainBuiltins : List String :=
  ["[", "alias", "bg", "cd", "chdir", "command", "echo", "false", "fg", "getopts", "hash", "jobs", "kill",
   "printf", "pwd", "read", "test", "true", "type", "ulimit", "umask", "unalias", "wait"]

def shellKeywords : List String :=
  ["!", "case", "do", "done", "elif", "else", "esac", "fi", "for", "if", "in", "then", "until", "while",
   "\x7b", "\x7d"]

/-- What a name stands for in a shell. -/
inductive Meaning where
  | keyword
  | shortcut (text : Text)
  | function
  | special
  | builtin
  | file (path : Text)
  /-- A program in a directory of the search path, and whether the shell knows it. -/
  | program (path : Text) (index : Nat) (known : Bool)
  | nothing
  deriving DecidableEq, Repr

def Shell.meaning (s : Shell) (name : Text) : Meaning :=
  let spelling := String.ofList name
  if shellKeywords.contains spelling then .keyword
  else if let some text := s.shortcuts.lookup name then .shortcut text
  else if name.contains '/' then (if s.tree.present (toPath name) then .file name else .nothing)
  else if (s.functions.lookup name).isSome then .function
  else if specialCommands.contains spelling then .special
  else if plainBuiltins.contains spelling then .builtin
  else
    let paths := candidates s.searchPath name
    let found (index : Nat) (known : Bool) : Meaning := .program (paths.getD index name) index known
    match s.known.lookup name with
    | some program => found program.index true
    | none =>
      match programIndex? s.tree none paths with
      | some index => found index false
      | none => .nothing

end Amalgam.Script
