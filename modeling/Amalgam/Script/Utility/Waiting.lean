import Amalgam.Script.Floating
import Amalgam.Script.Utility.Environment

/-!
# Time and other programs

Programs that wait, that repeat a line for ever, and that run another program under some condition.
-/

namespace Amalgam.Script

def unitSeconds? : Text → Option Nat
  | [] | ['s'] => some 1
  | ['m'] => some 60
  | ['h'] => some 3600
  | ['d'] => some 86400
  | _ => none

def longTime : Nat := Nat.pow 10 18

/-- The length of time in microseconds that a text writes: a number, and perhaps the letter of a unit. -/
def intervalOf? (t : Text) : Option Nat := do
  let (x, rest) ← floatingAt extendedFormat t
  let unit ← unitSeconds? rest
  match x with
  | .infinite false => some longTime
  | .finite negative mantissa exponent =>
    if negative && mantissa ≠ 0 then none
    else
      let (num, den) := binaryFraction mantissa exponent
      some (min longTime (num * unit * 1000000 / den))
  | _ => none

def sleepTool : Utility := fun e name args =>
  withOptions {} 1 name args fun o => do
    if o.operands.isEmpty then return ← misused name 1 "missing operand".toList
    let wrong := o.operands.filter fun t => (intervalOf? t).isNone
    for t in wrong do
      toolSays name ("invalid time interval ".toList ++ cited t)
    if wrong.isEmpty then
      pause e (o.operands.foldl (fun n t => n + (intervalOf? t).getD 0) 0)
      return 0
    seeHelp name
    return 1

def maxRepeatedLines : Nat := 1000000

def yesTool : Utility := fun _ name args =>
  withOptions { leading := true } 1 name args fun o => do
    let line := asLine (if o.operands.isEmpty then ['y'] else unwords o.operands)
    for _ in List.range maxRepeatedLines do
      say line
    throw .expired

/-! ### Running another program -/

def cannotStart (name : Text) (words : Text) (fault : OsError) : Run Nat :=
  toolFails name (startErrorStatus fault) (because words fault)

def timeoutTool : Utility := fun e name args =>
  let spec : OptionSpec :=
    { flags := "v", valued := "ks", leading := true,
      long := [.flag "preserve-status", .flag "foreground", .same "kill-after" 'k', .same "signal" 's',
        .same "verbose" 'v'] }
  let refuse (text : Text) : Run Nat := misused name 125 text
  withOptionsOr refuse spec name args fun o => do
    match (o.value? 'k').map fun t => (t, intervalOf? t) with
    | some (t, none) => return ← refuse ("invalid time interval ".toList ++ cited t)
    | _ => pure ()
    let signal := (o.value? 's').getD "TERM".toList
    let bare := if ("SIG".toList).isPrefixOf (signal.map Char.toUpper) then signal.drop 3 else signal
    match signalOf? bare with
    | none => refuse (cited signal ++ ": invalid signal".toList)
    | some number =>
      match o.operands with
      | [] | [_] =>
        seeHelp name
        return 125
      | duration :: command =>
        match intervalOf? duration with
        | none => refuse ("invalid time interval ".toList ++ cited duration)
        | some length =>
          let before := (← get).deadline
          let limit := (← get).clock + length
          let isFirst := length ≠ 0 && before.all (limit < ·)
          if isFirst then modify fun s => { s with deadline := some limit }
          let program := command.headD []
          let status ← tryCatch
            (startTool e command (cannotStart name ("failed to run command ".toList ++ quoted program)))
            fun stop => do
              if isFirst && stop = .expired then
                modify fun s => { s with deadline := before }
                if o.has 'v' then
                  toolSays name ("sending signal ".toList ++ signalName number ++ " to command ".toList ++
                    quoted program)
                if number = 9 then die 9
                return if o.mentions "preserve-status" then 128 + number else 124
              else throw stop
          modify fun s => { s with deadline := before }
          return status

end Amalgam.Script
