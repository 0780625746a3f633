import Amalgam.FileTree

/-!
# Faults

Why a build ends without a result.  A fault is a cause; its wording is in `Fault.detail`, its class in
`Fault.kind`, and `Fault.message` puts the two together.

## Main definitions

* `SettingsFault` — what is wrong with settings
* `Fault`, `Fault.Kind`
* `Fault.detail`, `Fault.message`, `Fault.path?`, `Fault.line?`
-/

namespace Amalgam

/-- The name of the settings file. -/
def settingsFile : String := "coiler.toml"

/-- What is wrong with the settings of a build. -/
inductive SettingsFault where
  /-- The settings file cannot be read. -/
  | unreadable (cause : OsError)
  /-- The settings file is not well-formed, or holds something that is no setting. -/
  | malformed
  /-- A search path of the settings file is no directory. -/
  | missingDirectory (written : String)
  /-- A search path of the command line is no directory. -/
  | missingOverride (path : Path)
  | emptyInterpreter
  deriving DecidableEq, Repr

/-- The text of what is wrong. -/
def SettingsFault.message : SettingsFault → String
  | unreadable cause => "could not read " ++ settingsFile ++ ": " ++ cause.message
  | malformed => settingsFile ++ ": invalid syntax"
  | missingDirectory written =>
    settingsFile ++ ": search path '" ++ written ++ "' is not a directory"
  | missingOverride path => "search path '" ++ path.text ++ "' is not a directory"
  | emptyInterpreter => "interpreter must not be empty"

/-- Why a build ends without a result. -/
inductive Fault where
  /-- A source file cannot be read: the path as it was given, and its canonical form. -/
  | unreadableSource (given full : Path) (cause : OsError)
  | unwritable (path : Path) (cause : OsError)
  | unopenable (path : Path) (cause : OsError)
  /-- A compiled program cannot be read. -/
  | unreadableProgram (path : Path) (cause : OsError)
  /-- Files import each other deeper than there are files.  It does not arise: a file is read once. -/
  | nesting (path : Path)
  | wildcardDenied (source : String) (path : Path) (line : Nat)
  | circularImport (chain : List String)
  | settings (fault : SettingsFault) (path : Path)
  | interpreterMissing (interpreter : String) (cause : OsError)
  | searchPathRefused (interpreter : String) (log : String)
  | compilationFailed (log : String)
  | linkerMissing (cause : OsError)
  | linkFailed (log : String)
  deriving DecidableEq, Repr

/-- The classes of faults. -/
inductive Fault.Kind where
  | files
  | unsupportedImport
  | circularImport
  | settings
  | toolchain
  | payload
  deriving DecidableEq, Repr

namespace Fault

/-- The class of a fault. -/
def kind : Fault → Kind
  | unreadableSource _ _ _ | unwritable _ _ | unopenable _ _ | unreadableProgram _ _ | nesting _ =>
    .files
  | wildcardDenied _ _ _ => .unsupportedImport
  | circularImport _ => .circularImport
  | settings _ _ => .settings
  | interpreterMissing _ _ | searchPathRefused _ _ | compilationFailed _ => .toolchain
  | linkerMissing _ | linkFailed _ => .payload

/-- The words that introduce a class of faults. -/
def Kind.heading : Kind → String
  | files => "I/O error"
  | unsupportedImport => "Unsupported import"
  | circularImport => "Circular import"
  | settings => "Config error"
  | toolchain => "Toolchain error"
  | payload => "Embed error"

/-- What went wrong. -/
def detail : Fault → String
  | unreadableSource given _ cause => "could not read '" ++ given.text ++ "': " ++ cause.message
  | unwritable path cause => "could not write '" ++ path.text ++ "': " ++ cause.message
  | unopenable path cause => "could not open '" ++ path.text ++ "': " ++ cause.message
  | unreadableProgram path cause =>
    "could not read compiled program '" ++ path.text ++ "': " ++ cause.message
  | nesting path => "could not read '" ++ path.text ++ "': imports are nested too deeply"
  | wildcardDenied source _ _ => "wildcard import from '" ++ source ++ "' is not supported"
  | circularImport chain => " -> ".intercalate chain
  | settings fault _ => fault.message
  | interpreterMissing interpreter cause =>
    "failed to run '" ++ interpreter ++ "': " ++ cause.message
  | searchPathRefused interpreter log =>
    "'" ++ interpreter ++ "' could not report its search path: " ++ log
  | compilationFailed log => "compilation failed:\n" ++ log
  | linkerMissing cause => "failed to invoke cc: " ++ cause.message
  | linkFailed log => "bootstrap compilation failed:\n" ++ log

/-- The class of a fault and what went wrong. -/
def message (fault : Fault) : String :=
  fault.kind.heading ++ ": " ++ fault.detail

/-- The file a fault is about. -/
def path? : Fault → Option Path
  | unreadableSource _ full _ => some full
  | unwritable path _ => some path
  | unopenable path _ => some path
  | unreadableProgram path _ => some path
  | nesting path => some path
  | wildcardDenied _ path _ => some path
  | settings _ path => some path
  | _ => none

/-- The line a fault is about. -/
def line? : Fault → Option Nat
  | wildcardDenied _ _ line => some line
  | _ => none

end Fault

end Amalgam
