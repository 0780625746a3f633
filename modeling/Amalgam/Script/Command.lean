import Amalgam.Script.Text

/-!
# Commands of shell scripts

What a script says once it is read.  A word is a list of parts: plain text, and places that are filled in
when the word is used.  A part remembers whether it stood between quotes, because only parts without quotes
are split into several words or taken as patterns.
-/

namespace Amalgam.Script

/-- What is made of the value of a parameter.  Where the flag is set, an empty value counts as none. -/
inductive Use where
  | value
  | length
  /-- Another word stands in for a parameter without a value. -/
  | orElse (orEmpty : Bool)
  /-- Another word becomes the value of a parameter without one. -/
  | assign (orEmpty : Bool)
  /-- A parameter without a value is an error, of which a word is the text. -/
  | require (orEmpty : Bool)
  /-- Another word stands in for a parameter with a value. -/
  | instead (orEmpty : Bool)
  /-- The value without the start that fits a pattern. -/
  | dropStart (longest : Bool)
  /-- The value without the end that fits a pattern. -/
  | dropEnd (longest : Bool)
  | malformed
  deriving DecidableEq, Repr

/-- How a descriptor is redirected. -/
inductive RedirectKind where
  | read
  | write
  | append
  /-- Writes even to a file that is there. -/
  | overwrite
  | readWrite
  /-- To where another descriptor leads. -/
  | duplicate
  /-- From a text in the script, known by its number. -/
  | document (index : Nat)
  deriving DecidableEq, Repr

mutual

/-- A part of a word. -/
inductive Part where
  | plain (text : Text) (quoted : Bool)
  | parameter (name : Text) (use : Use) (word : List Part) (quoted : Bool)
  | output (body : Command) (quoted : Bool)
  | arithmetic (expression : List Part) (quoted : Bool)

/-- A redirection of a descriptor. -/
inductive Redirect where
  | to (descriptor : Nat) (kind : RedirectKind) (target : List Part)

/-- A command. -/
inductive Command where
  /-- Assignments, a command by name with its arguments, and redirections; all may be missing. -/
  | simple (line : Nat) (assignments : List (Text × List Part)) (words : List (List Part))
      (redirects : List Redirect)
  | series (commands : List Command)
  /-- Commands each of which reads what the one before it writes. -/
  | pipe (commands : List Command)
  | negate (body : Command)
  | andThen (first second : Command)
  | orElse (first second : Command)
  | background (body : Command)
  | subshell (line : Nat) (body : Command) (redirects : List Redirect)
  | redirected (line : Nat) (body : Command) (redirects : List Redirect)
  | branch (test yes : Command) (no : Option Command)
  /-- A loop that goes on while its test succeeds, or until it does. -/
  | loop (untilTrue : Bool) (test body : Command)
  /-- A loop over words, or over the arguments if no words are given. -/
  | each (line : Nat) (name : Text) (words : Option (List (List Part))) (body : Command)
  /-- The command of the first pattern that a word fits. -/
  | choose (line : Nat) (subject : List Part) (cases : List (List (List Part) × Command))
  | define (name : Text) (body : Command)

end

abbrev Word := List Part

/-- The text of a part that is plain and not quoted. -/
def Part.bare? : Part → Option Text
  | plain text false => some text
  | _ => none

def bareText? (w : Word) : Option Text :=
  (w.mapM Part.bare?).map List.flatten

end Amalgam.Script
