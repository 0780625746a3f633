import Amalgam.Script.Lookup
import Amalgam.Script.Utility

/-!
# Where programs are

Programs that tell the place of programs and of the working directory.
-/

namespace Amalgam.Script

def whichTool : Utility := fun _ name args => do
  let rec options : List Text → Except Char (List Char × List Text)
    | ['-', '-'] :: rest => .ok ([], rest)
    | ('-' :: c :: letters) :: rest =>
      match (c :: letters).find? fun letter => letter != 'a' && letter != 's' with
      | some letter => .error letter
      | none => (options rest).map fun (given, rest) => (c :: letters ++ given, rest)
    | rest => .ok ([], rest)
  match options args with
  | .error letter =>
    sayError (asLine ("Illegal option -".toList ++ [letter]))
    say (asLine ("Usage: ".toList ++ (if name.contains '/' then name else "/usr/bin/".toList ++ name) ++
      " [-as] args".toList))
    return 2
  | .ok (given, programs) =>
    let s ← get
    programs.foldlM
      (fun status program => do
        let places := if program.contains '/' then [program] else candidates s.searchPath program
        let found := places.filter fun path =>
          match s.tree.entryAt? (toPath path) with
          | some (.program _) => true
          | some (.file _ executable) => executable
          | _ => false
        let found := if given.contains 'a' then found else found.take 1
        if !given.contains 's' then say (found.flatMap asLine)
        return if found.isEmpty then 1 else status)
      (if programs.isEmpty then 1 else 0)

/-- Shows the path of the working directory, without links unless they are asked for. -/
def pwdTool : Utility := fun _ name args =>
  withOptions { flags := "LP", long := [.same "logical" 'L', .same "physical" 'P'] } 1 name args fun o => do
    if !o.operands.isEmpty then toolSays name "ignoring non-option arguments".toList
    let s ← get
    let physical := ofString (Path.ofLocation s.tree.workdir).text
    let usual := if (s.value? "POSIXLY_CORRECT".toList).isSome then "L" else "P"
    let keeps := ((o.lastOf? ["L", "P"]).map Prod.fst).getD usual == "L"
    let shown := match s.value? "PWD".toList with
      | some path =>
        let plain := path.head? = some '/' &&
          (splitAt '/' path).all fun step => step ≠ ['.'] && step ≠ ['.', '.']
        let leads := (s.tree.locate (toPath path)).toOption = some s.tree.workdir
        if keeps && plain && leads then path else physical
      | none => physical
    say (asLine shown)
    return 0

end Amalgam.Script
