import Amalgam.Script.Builtin.Words

/-!
# Commands of a shell
-/

namespace Amalgam.Script

/-- Lets a command say that what it shows cannot be written, and fail because of that. -/
def reporting (command : Utility) : Utility := fun e name args => do
  if (← outputFault?).isNone then return ← command e name args
  let before := (← get).descriptors.filter (·.1 == 1)
  let id ← addChannel (.ofText [])
  let restore : Run Unit := modify fun s =>
    { s with descriptors := before ++ s.descriptors.filter (·.1 != 1) }
  setDescriptor 1 id
  let status ← tryCatch (command e name args) fun stop => do
    restore
    throw stop
  restore
  if (← written id).isEmpty then return status
  complain (name ++ ": I/O error".toList)
  return status ||| 1

/-- A command whose faults end the shell.  The flag says that its status is looked at. -/
def specialBuiltin? (tested : Bool) : String → Option Utility
  | "." => some dotCommand
  | ":" => some (endWith 0)
  | "break" => some breakCommand
  | "continue" => some continueCommand
  | "eval" => some (evalCommand tested)
  | "exec" => some execCommand
  | "exit" => some exitCommand
  | "export" => some (reporting exportCommand)
  | "local" => some localCommand
  | "readonly" => some (reporting readonlyCommand)
  | "return" => some returnCommand
  | "set" => some (reporting setCommand)
  | "shift" => some shiftCommand
  | "times" => some (reporting timesCommand)
  | "trap" => some (reporting trapCommand)
  | "unset" => some unsetCommand
  | _ => none

/-- A command that the shell does itself, and that is not special. -/
def plainBuiltin? : String → Option Utility
  | "[" | "test" => some testCommand
  | "alias" => some (reporting aliasCommand)
  | "unalias" => some unaliasCommand
  | "bg" | "fg" => some resumeCommand
  | "cd" | "chdir" => some (reporting cdCommand)
  | "command" => some (reporting describeCommand)
  | "echo" => some (reporting echoCommand)
  | "false" => some (endWith 1)
  | "getopts" => some getoptsCommand
  | "hash" => some (reporting hashCommand)
  | "jobs" => some (reporting jobsCommand)
  | "kill" => some (reporting killCommand)
  | "printf" => some (reporting printfCommand)
  | "pwd" => some (reporting pwdCommand)
  | "read" => some readLineCommand
  | "true" => some (endWith 0)
  | "type" => some (reporting typeCommand)
  | "ulimit" => some (reporting ulimitCommand)
  | "umask" => some (reporting umaskCommand)
  | "wait" => some waitCommand
  | _ => none

end Amalgam.Script
