import Amalgam.FileTree

/-!
# Hosts

A build runs other programs: the interpreter, to learn its search path and to compile, and the linker.  A
host says what running a program does: it cannot be started, or it ends with a status and some output and
leaves a file tree.  Nothing else about programs matters to a build, so a build is the same function for
every host.  The host in use is `Script.host`: interpreters are shell scripts of the tree.

## Main definitions

* `Command`, `Outcome` — a program with its arguments, and how it ended
* `Host` — what running programs does
-/

namespace Amalgam

/-- A program to run, and its arguments. -/
structure Command where
  program : String
  args : List String
  deriving DecidableEq, Repr

/-- How a program ended. -/
structure Outcome where
  status : Nat
  stdout : Bytes
  stderr : Bytes
  deriving DecidableEq, Repr

/-- What running a program does to a file tree. -/
structure Host where
  run : FileTree → Command → Except OsError (Outcome × FileTree)
  /-- The C source of the program that starts an embedded payload. -/
  launcher : String := ""

end Amalgam
