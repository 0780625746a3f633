import Amalgam.Request

/-!
# Help

The text that says how the program is used.  It has two columns: what can be written, and what it means.

## Main definitions

* `helpRow`, `helpRows` — the two columns
* `Topic.lines` — the help about something
-/

namespace Amalgam

/-- A text filled with blanks up to a width. -/
def padTo (width : Nat) (text : String) : String :=
  text ++ String.ofList (List.replicate (width - text.length) ' ')

/-- A row of two columns, the first of the given width. -/
def helpRow (width : Nat) (row : String × String) : String :=
  "  " ++ padTo width row.1 ++ "  " ++ row.2

/-- Rows of two columns, the first as wide as its widest text. -/
def helpRows (rows : List (String × String)) : List String :=
  let width := (rows.map fun row => row.1.length).foldl max 0
  rows.map (helpRow width)

namespace Action

/-- What an action does. -/
def summary : Action → String
  | build => "Combine and compile to bytecode (or a native executable with --embed)"
  | combine => "Write only the combined source"
  | graph => "Show emission order, external imports and renamed symbols"

end Action

namespace Switch

/-- How an option is written. -/
def spelling (s : Switch) : String :=
  let lead := match s.short? with
    | some c => String.ofList ['-', c, ',', ' ']
    | none => "    "
  let value := match s.value? with
    | some name => " <" ++ name ++ ">"
    | none => if s = .verbose then "..." else ""
  lead ++ "--" ++ s.long ++ value

/-- What an option of an action means. -/
def summary (action : Option Action) : Switch → String
  | mode => "Module search mode: \"local\" (entry dir + configured paths) or \"all\" (adds the " ++
      "interpreter's sys.path)"
  | interpreter => "Python interpreter used for sys.path discovery and compilation"
  | path => "Extra local search directory (repeatable)"
  | wildcard => "Wildcard imports: \"warn\", \"deny\" or \"bind\""
  | cycles => "Import cycles: \"reject\" or \"break\""
  | output =>
    if action = some .build then
      "Output path (defaults to a.pyc, a.out with --embed, a.py with --source-only)"
    else "Output path. If omitted, prints to stdout"
  | embed => "Produce a native executable that runs the compiled program"
  | sourceOnly => "Write the combined source instead of compiling it"
  | json => "Print the report as JSON"
  | verbose => "More log output (-v info, -vv debug, -vvv trace). RUST_LOG takes precedence"
  | help => "Print help"
  | version => "Print version"

end Switch

/-- The rows of options. -/
def switchRows (action : Option Action) (switches : List Switch) : List String :=
  helpRows (switches.map fun s => (s.spelling, s.summary action))

/-- What help about help says first. -/
def helpSummary : String :=
  "Print this message or the help of the given subcommand(s)"

namespace Topic

/-- How a command is written. -/
def usage : Topic → String
  | program => "Usage: " ++ programName ++ " [OPTIONS] <COMMAND>"
  | action a => "Usage: " ++ programName ++ " " ++ a.word ++ " [OPTIONS] <ENTRY>"
  | help => "Usage: " ++ programName ++ " help [COMMAND]..."

/-- The lines of the help about something. -/
def lines (topic : Topic) : List String :=
  match topic with
  | program =>
    ["Combine a multi-file Python program into a single file", "", topic.usage, "", "Commands:"] ++
      helpRows (Action.all.map (fun a => (a.word, a.summary)) ++ [("help", helpSummary)]) ++
      ["", "Options:"] ++ switchRows none leadingSwitches
  | action a =>
    [a.summary, "", topic.usage, "", "Arguments:"] ++
      helpRows [("<ENTRY>", "Entry-point source file")] ++
      ["", "Options:"] ++ switchRows (some a) (switchesOf a)
  | help =>
    [helpSummary, "", topic.usage, "", "Arguments:"] ++
      helpRows [("[COMMAND]...", "Print help for the subcommand(s)")]

end Topic

end Amalgam
