import Amalgam.Script.Pattern

/-!
# Regular expressions

A match of a regular expression is the leftmost one, and the longest there.  Of several ways to reach the
longest one, the first counts: alternatives are tried from left to right, and repetitions go on as long as
they can.

Matching follows all places at once that can be reached, in the order of preference; a place that was
reached before is not followed again, unless what groups matched makes a difference.
-/

namespace Amalgam.Script

inductive BracketItem where
  | one (c : Char)
  | range (low high : Char)
  | named (name : String)
  deriving DecidableEq, Repr

inductive Regex where
  | nothing
  | char (c : Char)
  | any
  /-- One of the characters between brackets, or one of the others. -/
  | oneOf (negated : Bool) (items : List BracketItem)
  | lineStart
  | lineEnd
  | textStart
  | textEnd
  | wordStart
  | wordEnd
  /-- A place where a word starts or ends, or a place where none does. -/
  | wordEdge (wanted : Bool)
  | follow (first second : Regex)
  | either (first second : Regex)
  | times (least : Nat) (most : Option Nat) (body : Regex)
  | group (index : Nat) (body : Regex)
  | again (index : Nat)
  deriving DecidableEq, Repr

def Regex.groupCount : Regex → Nat
  | follow first second => max first.groupCount second.groupCount
  | either first second => max first.groupCount second.groupCount
  | times _ _ body => body.groupCount
  | group index body => max index body.groupCount
  | _ => 0

def Regex.refersBack : Regex → Bool
  | follow first second => first.refersBack || second.refersBack
  | either first second => first.refersBack || second.refersBack
  | times _ _ body => body.refersBack
  | group _ body => body.refersBack
  | again _ => true
  | _ => false

def literalRegex (t : Text) : Regex :=
  t.foldr (fun c r => .follow (.char c) r) .nothing

/-! ### Characters -/

/-- What counts when an expression is matched. -/
structure MatchMode where
  ignoreCase : Bool := false
  multiline : Bool := false
  exact : Bool := false
  deriving DecidableEq, Repr

/-- Are the characters the same, where the case of letters may be left out of account? -/
def sameChar (ignoreCase : Bool) (c d : Char) : Bool :=
  c == d || (ignoreCase && c.toLower == d.toLower)

def BracketItem.holds (c : Char) : BracketItem → Bool
  | one d => c == d
  | range low high => low ≤ c && c ≤ high
  | named name => inClass name c

def inBrackets (ignoreCase : Bool) (items : List BracketItem) (c : Char) : Bool :=
  items.any (·.holds c) ||
    (ignoreCase && (items.any (·.holds c.toLower) || items.any (·.holds c.toUpper)))

def Regex.single? (ignoreCase : Bool) : Regex → Option (Char → Bool)
  | char c => some (sameChar ignoreCase c)
  | any => some fun _ => true
  | oneOf negated items => some fun c => inBrackets ignoreCase items c != negated
  | _ => none

/-- A test that the first character of a match passes, if a match has one and there is such a test. -/
def Regex.first? (ignoreCase : Bool) : Regex → Option (Char → Bool)
  | follow first second =>
    match first with
    | wordStart | wordEnd | wordEdge _ | lineStart | textStart | nothing => second.first? ignoreCase
    | _ => first.first? ignoreCase
  | either first second =>
    match first.first? ignoreCase, second.first? ignoreCase with
    | some p, some q => some fun c => p c || q c
    | _, _ => none
  | times least _ body => if least = 0 then none else body.first? ignoreCase
  | group _ body => body.first? ignoreCase
  | r => r.single? ignoreCase

def Regex.isAnchored (multiline : Bool) : Regex → Bool
  | lineStart => !multiline
  | textStart => true
  | follow first _ => first.isAnchored multiline
  | either first second => first.isAnchored multiline && second.isAnchored multiline
  | group _ body => body.isAnchored multiline
  | _ => false

/-! ### Places -/

/-- A place that a match has reached, where groups were opened, and what groups matched: where each starts
and ends. -/
structure MatchState where
  position : Nat
  opened : List (Nat × Nat) := []
  groups : List (Nat × Nat × Nat) := []
  deriving DecidableEq, Repr

/-- Without states that were there before: at the same place, or with the same groups as well. -/
def distinctStates (mode : MatchMode) (size : Nat) (states : List MatchState) : List MatchState :=
  match states with
  | [] | [_] => states
  | _ =>
    if mode.exact then
      (states.foldl (fun kept s => if kept.contains s then kept else s :: kept) []).reverse
    else
      (states.foldl
        (fun (kept, seen) s =>
          if seen.getD s.position false then (kept, seen)
          else (s :: kept, seen.setIfInBounds s.position true))
        (([], Array.replicate (size + 1) false) : List MatchState × Array Bool)).1.reverse

/-- What was reached so far: states in order of preference, the last first, and places that need not be
reached again. -/
structure Reached where
  states : List MatchState := []
  seen : Array Bool
  /-- The same for states whose groups make a difference. -/
  known : List MatchState := []

def Reached.has (reached : Reached) (exact : Bool) (s : MatchState) : Bool :=
  if exact then reached.known.contains s else reached.seen.getD s.position false

def Reached.mark (reached : Reached) (exact : Bool) (s : MatchState) : Reached :=
  if exact then { reached with known := s :: reached.known }
  else { reached with seen := reached.seen.setIfInBounds s.position true }

/-- Goes on with a step from a state as often as possible; states that are reached later are preferred.
`fuel` bounds the number of steps in a row. -/
def closureFrom (exact : Bool) (step : MatchState → List MatchState) :
    Nat → MatchState → Reached → Reached
  | 0, _, reached => reached
  | fuel + 1, s, reached =>
    if reached.has exact s then reached
    else
      let after := (step s).foldl
        (fun reached t => if t.position = s.position then reached else closureFrom exact step fuel t reached)
        (reached.mark exact s)
      { after with states := s :: after.states }

def optionalSteps (step : MatchState → List MatchState) (clean : List MatchState → List MatchState) :
    Nat → MatchState → List MatchState
  | 0, s => [s]
  | n + 1, s =>
    let next := (step s).filter (·.position != s.position)
    clean (next.flatMap (optionalSteps step clean n) ++ [s])

def exactSteps (step : List MatchState → List MatchState) : Nat → List MatchState → List MatchState
  | 0, states => states
  | n + 1, states => exactSteps step n (step states)

/-- The places that repetitions of a single character reach from a place, the last first. -/
def runPlaces (fits : Char → Bool) (text : Array Char) (least : Nat) (most : Option Nat) (s : MatchState) :
    List MatchState :=
  let bound := match most with
    | some n => min n (text.size - s.position)
    | none => text.size - s.position
  let rec count : Nat → Nat → Nat
    | 0, n => n
    | left + 1, n =>
      match text[s.position + n]? with
      | some c => if fits c then count left (n + 1) else n
      | none => n
  let length := count bound 0
  (List.range (length + 1 - least)).map fun i => { s with position := s.position + length - i }

/-! ### Matching -/

def isWordAt (text : Array Char) (i : Nat) : Bool :=
  match text[i]? with
  | some c => isNameChar c
  | none => false

def isWordBefore (text : Array Char) (i : Nat) : Bool :=
  i ≠ 0 && isWordAt text (i - 1)

def MatchState.openedAt (s : MatchState) (index : Nat) : Nat :=
  (s.opened.lookup index).getD s.position

def MatchState.close (s : MatchState) (index : Nat) : MatchState :=
  { s with
    opened := s.opened.filter (·.1 != index)
    groups := (index, s.openedAt index, s.position) :: s.groups.filter (·.1 != index) }

/-- The places that matches can reach from states, in order of preference. -/
def Regex.ends (mode : MatchMode) (text : Array Char) : Regex → List MatchState → List MatchState
  | nothing, states => states
  | char c, states => states.filterMap fun s =>
    match text[s.position]? with
    | some d => if sameChar mode.ignoreCase c d then some { s with position := s.position + 1 } else none
    | none => none
  | any, states => states.filterMap fun s =>
    if s.position < text.size then some { s with position := s.position + 1 } else none
  | oneOf negated items, states => states.filterMap fun s =>
    match text[s.position]? with
    | some d =>
      if inBrackets mode.ignoreCase items d != negated then some { s with position := s.position + 1 }
      else none
    | none => none
  | lineStart, states => states.filter fun s =>
    s.position = 0 || (mode.multiline && text[s.position - 1]? == some '\n')
  | lineEnd, states => states.filter fun s =>
    s.position = text.size || (mode.multiline && text[s.position]? == some '\n')
  | textStart, states => states.filter fun s => s.position = 0
  | textEnd, states => states.filter fun s => s.position = text.size
  | wordStart, states => states.filter fun s => isWordAt text s.position && !isWordBefore text s.position
  | wordEnd, states => states.filter fun s => !isWordAt text s.position && isWordBefore text s.position
  | wordEdge wanted, states => states.filter fun s =>
    (isWordBefore text s.position != isWordAt text s.position) == wanted
  | follow first second, states => second.ends mode text (first.ends mode text states)
  | either first second, states =>
    distinctStates mode text.size
      (states.flatMap fun s => first.ends mode text [s] ++ second.ends mode text [s])
  | times least most body, states =>
    match body.single? mode.ignoreCase with
    | some fits => distinctStates mode text.size (states.flatMap (runPlaces fits text least most))
    | none =>
      let step (s : MatchState) : List MatchState := body.ends mode text [s]
      let clean := distinctStates mode text.size
      let start := exactSteps (fun states => clean (states.flatMap step)) least states
      match most with
      | some most => clean (start.flatMap (optionalSteps step clean (most - least)))
      | none =>
        (start.foldl (fun reached s => closureFrom mode.exact step (text.size + 2) s reached)
          { seen := Array.replicate (text.size + 1) false }).states.reverse
  | group index body, states =>
    (body.ends mode text
      (states.map fun s => { s with opened := (index, s.position) :: s.opened })).map (·.close index)
  | again index, states => states.filterMap fun s =>
    match s.groups.lookup index with
    | none => none
    | some (start, stop) =>
      let fits := (List.range (stop - start)).all fun i =>
        match text[start + i]?, text[s.position + i]? with
        | some c, some d => sameChar mode.ignoreCase c d
        | _, _ => false
      if fits then some { s with position := s.position + (stop - start) } else none

/-- A match: where it starts and ends, and what groups matched. -/
structure Match where
  start : Nat
  stop : Nat
  groups : List (Nat × Text)
  deriving DecidableEq, Repr

/-- An expression with what counts when it is matched. -/
structure Finder where
  regex : Regex
  ignoreCase : Bool := false
  multiline : Bool := false
  deriving DecidableEq, Repr

def Finder.mode (f : Finder) : MatchMode :=
  ⟨f.ignoreCase, f.multiline, f.regex.refersBack⟩

def slice (text : Array Char) (start stop : Nat) : Text :=
  (text.extract start stop).toList

/-- All matches at a place that end at different places, in order of preference. -/
def Finder.matchesAt (f : Finder) (text : Array Char) (start : Nat) : List Match :=
  (f.regex.ends f.mode text [⟨start, [], []⟩]).map fun s =>
    ⟨start, s.position, s.groups.map fun (index, a, b) => (index, slice text a b)⟩

def Finder.matchAt? (f : Finder) (text : Array Char) (start : Nat) : Option Match :=
  ((f.regex.ends f.mode text [⟨start, [], []⟩]).foldl
    (fun best s =>
      match best with
      | some (b : MatchState) => if b.position < s.position then some s else some b
      | none => some s)
    none).map fun s => ⟨start, s.position, s.groups.map fun (index, a, b) => (index, slice text a b)⟩

def Finder.starts (f : Finder) (text : Array Char) (start : Nat) : List Nat :=
  if f.regex.isAnchored f.multiline then (if start = 0 then [0] else [])
  else
    let all := (List.range (text.size + 1 - start)).map (start + ·)
    match f.regex.first? f.ignoreCase with
    | some fits => all.filter fun i => (text[i]?.map fits).getD false
    | none => all

def Finder.findIn? (f : Finder) (text : Array Char) (start : Nat) : Option Match :=
  (f.starts text start).findSome? (f.matchAt? text)

def Finder.find? (f : Finder) (text : Text) (start : Nat) : Option Match :=
  f.findIn? text.toArray start

end Amalgam.Script
