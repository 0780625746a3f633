import Amalgam.Script.Pattern
import Amalgam.Script.Shell

/-!
# All arguments as one value

The arguments of a shell have one value together: they stand one after the other, with something between
them.  Where words are split that is a **joint**, a character that no argument holds, and each argument becomes
a word of its own; elsewhere it is the first separator.

A pattern is compared with a value up to its first joint.  What is to be removed from the end, and the longest
start, are looked for from the end of the whole value on; the other two in the first argument.  In a quoted
value some characters are marked.  If the first argument has such a character, it is copied without marks
behind the value and the pattern, and the search goes back through the copy, the pattern and the value, while
every step counts as one character of the value.
-/

namespace Amalgam.Script

/-- Stands between arguments that become words of their own. -/
def joint : Char := '\x00'

def untilJoint (t : Text) : Text :=
  t.takeWhile (· != joint)

/-- What stands between the arguments in the value of all of them. -/
def argumentJoint (s : Shell) (split quoted : Bool) (name : Text) : Option Char :=
  let separators := s.value? "IFS".toList
  if split && (if quoted then name == ['@'] else separators.isSome) then some joint
  else (separators.getD [' ']).head?

def isAllArguments (name : Text) : Bool :=
  name == ['@'] || name == ['*']

/-- The value of a parameter, quoted or not, in a word that is split or not. -/
def Shell.valueIn? (s : Shell) (split quoted : Bool) (name : Text) : Option Text :=
  if isAllArguments name then
    match argumentJoint s split quoted name with
    | some c => some (joinWith c s.args)
    | none => some s.args.flatten
  else s.parameter? name

/-! ### Removing what fits -/

def markedText (quoted : Bool) (t : Text) : Text :=
  if quoted then t.flatMap fun c => if isMarked c then ['\x81', c] else [c] else t

def isCopied (quoted : Bool) (t : Text) : Bool :=
  quoted && (untilJoint t).any isMarked

def patternText (pattern : List Mark) : Text :=
  pattern.flatMap fun m => if !m.active && isMarked m.char then ['\\', m.char] else [m.char]

/-- The value without the shortest start of its first argument that fits. -/
def trimShortestStart (pattern : List Mark) (t : Text) : Text :=
  let first := untilJoint t
  shortestStart pattern first ++ t.drop first.length

/-- The value up to the longest end of its first argument that fits. -/
def trimLongestEnd (pattern : List Mark) (t : Text) : Text :=
  let first := untilJoint t
  match (List.range (first.length + 1)).find? fun n => fits pattern (first.drop n) with
  | some n => first.take n
  | none => t

def trimShortestEnd (quoted : Bool) (pattern : List Mark) (t : Text) : Text :=
  let value := markedText quoted t ++ [joint]
  let store := if isCopied quoted t then value ++ patternText pattern ++ joint :: untilJoint t ++ [joint] else value
  let ended (n : Nat) : Bool := fits pattern (untilJoint (store.drop (store.length - 1 - n)))
  match (List.range (t.length + 1)).find? ended with
  | some n => t.take (t.length - n)
  | none => t

/-- The value without the longest start that fits.  Beyond the copy the search shortens the pattern. -/
def trimLongestStart (quoted : Bool) (pattern : List Mark) (t : Text) : Text :=
  let first := untilJoint t
  let size := if isCopied quoted t then first.length else (markedText quoted t).length
  let started (n : Nat) : Bool :=
    if n ≤ size then fits pattern (first.take (size - n))
    else
      let back := n - size
      let shorter := if 1 < back && back ≤ pattern.length + 1 then pattern.take (pattern.length + 1 - back)
        else pattern
      fits shorter first
  match (List.range (t.length + 1)).find? started with
  | some n => t.drop (t.length - n)
  | none => t

end Amalgam.Script
