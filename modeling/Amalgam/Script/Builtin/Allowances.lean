import Amalgam.Script.Builtin.Variables

/-!
# The command for limits
-/

namespace Amalgam.Script

def Shell.allowance (s : Shell) (kind : AllowanceKind) : Allowance :=
  (s.allowances.lookup kind.letter).getD kind.start

def allowanceValue (t : Text) : Run (Option Nat) := do
  if t = "unlimited".toList then return none
  if !t.all Char.isDigit then abort "bad number".toList
  return some (digitsValue t)

def ulimitCommand : Utility := fun _ _ args => do
  let letters := String.ofList (allowanceKinds.map AllowanceKind.letter)
  let (options, operands) ← leadingOptions ("HSa" ++ letters) args
  let side := (options.filter fun c => c == 'H' || c == 'S').getLast?
  let all := options.contains 'a'
  let letter := ((options.filter letters.toList.contains).getLast?).getD 'f'
  let s ← get
  let shown (kind : AllowanceKind) : Text :=
    allowanceText (if side = some 'H' then (s.allowance kind).hard else (s.allowance kind).soft)
  match allowanceKinds.find? (·.letter == letter), operands with
  | some kind, t :: rest =>
    if all || !rest.isEmpty then abort "too many arguments".toList
    let value ← allowanceValue t
    match (s.allowance kind).set (side != some 'H') (side != some 'S') value with
    | .ok limit => modify fun s => { s with allowances := (letter, limit) :: s.allowances.filter (·.1 != letter) }
    | .error fault => abort ("error setting limit (".toList ++ fault.toList ++ [')'])
  | some kind, [] =>
    if all then
      for kind in allowanceKinds do
        say (asLine (kind.title.toList ++ List.replicate (20 - kind.title.length) ' ' ++ ' ' :: shown kind))
    else say (asLine (shown kind))
  | none, _ => pure ()
  return 0

end Amalgam.Script
