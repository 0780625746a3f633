import Amalgam.Script.Arguments
import Amalgam.Script.Arithmetic
import Amalgam.Script.Process

/-!
# Expansion of words

What a word stands for: its parameters, commands and expressions are replaced, then what came from outside of
quotes is split into several words, and words that are patterns become the names of files.
-/

namespace Amalgam.Script

/-! ### Commands in words -/

def dropLineEnds (t : Text) : Text :=
  (t.reverse.dropWhile (· == '\n')).reverse

def outputOf (e : Engine) (c : Command) : Run Text := do
  let id ← addChannel (.ofText [])
  let ended ← isolated e do
    setDescriptor 1 id
    e.run false c
  noteChild
  settleHolders e id
  showEnd? ended
  modify fun s => { s with inner := ended.status }
  return dropLineEnds ((← written id).filter (·.toNat != 0))

/-! ### Pieces -/

/-- A piece of an expanded word. -/
inductive Piece where
  /-- A character; an `active` one may be part of a pattern, and one that `splits` may end a word. -/
  | char (c : Char) (active splits : Bool)
  /-- There is a word here, be it an empty one. -/
  | keep
  /-- A value starts here, whose separators are not taken together with those before it; a `joined` one is that
  of quoted arguments. -/
  | region (joined : Bool)
  /-- An argument ends here, and another one starts. -/
  | cut
  deriving DecidableEq, Repr

def quotedPieces (t : Text) : List Piece :=
  if t.isEmpty then [.keep] else t.map fun c => .char c false false

def openPieces (t : Text) : List Piece :=
  t.map fun c => .char c true true

def valuePieces (quoted : Bool) (t : Text) : List Piece :=
  if quoted then quotedPieces t else .region false :: openPieces t

def argumentPieces (quoted : Bool) (args : List Text) : List Piece :=
  let words := args.map fun t => t.map fun c => Piece.char c (!quoted) (!quoted)
  .region quoted :: (words.intersperse [.cut]).flatten

/-- Does a name between quotes stand for arguments, each of which is a word? -/
def Shell.isJoined (s : Shell) (name : Text) (quoted : Bool) : Bool :=
  quoted && name == ['@'] && !s.args.isEmpty

def jointPieces (s : Shell) (name : Text) (quoted : Bool) (t : Text) : List Piece :=
  if quoted && !s.isJoined name quoted then quotedPieces t else argumentPieces quoted (splitAt joint t)

def piecesText (pieces : List Piece) : Text :=
  pieces.flatMap fun
    | .char c _ _ => [c]
    | .keep | .region _ => []
    | .cut => [' ']

def piecesMarks (pieces : List Piece) : List Mark :=
  pieces.flatMap fun
    | .char c active _ => [⟨c, active⟩]
    | .keep | .region _ => []
    | .cut => [⟨' ', false⟩]

def unsetFault {α : Type} (name : Text) (text : Text) : Run α :=
  abort (name ++ ": ".toList ++ text)

def counts (orEmpty : Bool) (value : Option Text) : Bool :=
  match value with
  | some t => !(orEmpty && t.isEmpty)
  | none => false

/-- Stops if the parameter has no value where unset parameters are faults. -/
def checkSet (name : Text) (value : Option Text) : Run Unit := do
  if value.isNone && (← get).has 'u' then unsetFault name "parameter not set".toList

def parameterPieces (name : Text) (split quoted : Bool) : Run (List Piece) := do
  let s ← get
  let value := s.valueIn? split quoted name
  checkSet name value
  if isAllArguments name && s.args.isEmpty && !(quoted && name == ['*']) then return []
  return match value with
    | some t => jointPieces s name quoted t
    | none => if quoted then [.keep] else []

def usualHomes : List (String × String) :=
  [("root", "/root"), ("daemon", "/usr/sbin"), ("bin", "/bin"), ("sys", "/dev"), ("sync", "/bin"),
   ("games", "/usr/games"), ("man", "/var/cache/man"), ("lp", "/var/spool/lpd"), ("mail", "/var/mail"),
   ("news", "/var/spool/news"), ("uucp", "/var/spool/uucp"), ("proxy", "/bin"), ("www-data", "/var/www"),
   ("backup", "/var/backups"), ("list", "/var/list"), ("irc", "/run/ircd"), ("nobody", "/nonexistent")]

def Shell.homeOf? (s : Shell) (name : Text) : Option Text :=
  if name.isEmpty then (s.value? "HOME".toList).filter (!·.isEmpty)
  else (usualHomes.lookup (String.ofList name)).map String.toList

/-- Plain text as parts, with home directories in place of tildes: at the start if `starts` says so, and, with
`colons`, after every colon.  `ends` says that nothing follows the text.  `fuel` bounds the number of
tildes. -/
def tildeParts (s : Shell) (colons ends : Bool) : Nat → Bool → Text → List Part
  | 0, _, t => [.plain t false]
  | fuel + 1, starts, t =>
    let stops (c : Char) : Bool := c == '/' || (colons && c == ':')
    let onward (t : Text) : List Part :=
      let before := t.takeWhile (· != ':')
      match t.drop before.length with
      | [] => [.plain t false]
      | _ :: rest =>
        if colons then .plain (before ++ [':']) false :: tildeParts s colons ends fuel true rest
        else [.plain t false]
    match starts, t with
    | true, '~' :: rest =>
      let name := rest.takeWhile (!stops ·)
      let after := rest.drop name.length
      match if after.isEmpty && !ends then none else s.homeOf? name with
      | some home => .plain home true :: onward after
      | none => onward t
    | _, _ => onward t

def withHomes (s : Shell) (colons : Bool) : Bool → Word → Word
  | _, [] => []
  | starts, .plain t false :: rest =>
    tildeParts s colons rest.isEmpty (t.length + 1) starts t ++
      withHomes s colons (colons && t.getLast? == some ':') rest
  | _, part :: rest => part :: withHomes s colons false rest

def withHome (s : Shell) (w : Word) : Word :=
  match w with
  | .plain ('~' :: _) false :: _ => withHomes s false true w
  | _ => w

def wordDepth : Nat := 400

/-- The pieces of a part.  `split` says that the word is split, and `inside` that the part belongs to the word of
a parameter, whose text is split where it is not quoted. -/
def expandPart (e : Engine) : Nat → Bool → Bool → Part → Run (List Piece)
  | 0, _, _, _ => return []
  | fuel + 1, split, inside, part => do
    let all (split : Bool) (word : Word) : Run (List Piece) :=
      word.foldlM (fun pieces p => do return pieces ++ (← expandPart e fuel split true p)) []
    let standIn (quoted : Bool) (word : Word) : Run (List Piece) := do
      let s ← get
      match ← all split (if quoted then word else withHome s word) with
      | [] => return if quoted then [.keep] else []
      | pieces => return pieces
    match part with
    | .plain text true => return quotedPieces text
    | .plain text false =>
      return if inside then .region false :: openPieces text else text.map fun c => .char c true false
    | .output body quoted => return valuePieces quoted (← outputOf e body)
    | .arithmetic expression quoted =>
      let n ← arithmetic (piecesText (← all false expression))
      return valuePieces quoted (ofInt n)
    | .parameter name use word quoted =>
      -- Lengths and stand-ins count what is between the arguments as text.
      let counted := match use with
        | .length | .instead _ => false
        | _ => split
      let value := (← get).valueIn? counted quoted name
      let isArguments := (← get).isJoined name quoted
      let trimmed (cut : List Mark → Text → Text) : Run (List Piece) := do
        checkSet name value
        match value with
        | none => return if quoted then [.keep] else []
        | some text =>
          let pattern := piecesMarks (← all false word)
          return jointPieces (← get) name quoted (cut pattern text)
      match use with
      | .value => parameterPieces name split quoted
      | .length =>
        checkSet name value
        let size := ofNat (value.getD []).length
        return if isArguments then .region true :: quotedPieces size else valuePieces quoted size
      | .orElse orEmpty =>
        if counts orEmpty value then parameterPieces name split quoted else standIn quoted word
      | .instead orEmpty =>
        if counts orEmpty value then standIn quoted word
        else return if isArguments then [.region true, .keep] else valuePieces quoted []
      | .assign orEmpty =>
        if counts orEmpty value then parameterPieces name split quoted
        else if !isName name then
          abort (name ++ ": bad variable name".toList)
        else
          let text := piecesText (← all false word)
          setVariable name text
          return valuePieces quoted text
      | .require orEmpty =>
        if counts orEmpty value then parameterPieces name split quoted
        else if word.isEmpty then
          unsetFault name ("parameter not set" ++ if orEmpty then " or null" else "").toList
        else unsetFault name (piecesText (← all false word))
      | .dropStart longest => trimmed (if longest then trimLongestStart quoted else trimShortestStart)
      | .dropEnd longest => trimmed (if longest then trimLongestEnd else trimShortestEnd quoted)
      | .malformed => abort "Bad substitution".toList

def expandPieces (e : Engine) (split : Bool) (w : Word) : Run (List Piece) := do
  (withHome (← get) w).foldlM
    (fun pieces p => do return pieces ++ (← expandPart e wordDepth split false p)) []

/-! ### Words -/

/-- Words that are being put together: the words so far and the marks of the present one, both the last
first. -/
structure Fields where
  done : List (List Mark) := []
  current : List Mark := []
  /-- Is there a present word, be it an empty one? -/
  present : Bool := false
  blank : Bool := false
  /-- Was the last value that of quoted arguments? -/
  joined : Bool := false
  /-- Does every separator of the present value end a word?  So it is in a value that follows quoted
  arguments. -/
  strict : Bool := false

def Fields.finish (f : Fields) : Fields :=
  { f with done := f.current.reverse :: f.done, current := [], present := false, blank := false }

def Fields.gap (f : Fields) : Fields :=
  if f.present then { f.finish with blank := true } else f

/-- Adds a piece.  Blanks among the separators end a word and count once; any other separator ends a word
even if it is empty, together with the blanks around it.  What is between arguments counts as a blank. -/
def Fields.add (separators : Text) (f : Fields) : Piece → Fields
  | .keep => { f with present := true }
  | .region joined => { f with strict := f.joined, joined, blank := false }
  | .cut => if f.joined || f.strict then f.finish else f.gap
  | .char c active splits =>
    if splits && separators.contains c then
      if f.strict then f.finish
      else if c == ' ' || c == '\t' || c == '\n' then f.gap
      else if f.blank then { f with blank := false }
      else f.finish
    else { f with current := ⟨c, active⟩ :: f.current, present := true, blank := false }

/-- The words that pieces are split into.  The last of quoted arguments is a word even if it is empty. -/
def fieldsOf (separators : Text) (pieces : List Piece) : List (List Mark) :=
  let f := pieces.foldl (Fields.add separators) {}
  (if f.present || f.joined then f.finish else f).done.reverse

def expandWord (e : Engine) (w : Word) : Run (List Text) := do
  let pieces ← expandPieces e true w
  let s ← get
  let fields := fieldsOf s.separators pieces
  return if s.has 'f' then fields.map markText else fields.flatMap (expandNames s.tree)

def expandWords (e : Engine) (ws : List Word) : Run (List Text) :=
  ws.foldlM (fun words w => do return words ++ (← expandWord e w)) []

def expandText (e : Engine) (w : Word) : Run Text := do
  return piecesText (← expandPieces e false w)

def expandValue (e : Engine) (w : Word) : Run Text := do
  let s ← get
  let w := if w.any fun | .plain t false => t.contains '~' | _ => false then withHomes s true true w else w
  let pieces ← w.foldlM (fun pieces p => do return pieces ++ (← expandPart e wordDepth false false p)) []
  return piecesText pieces

/-- The text of a value in which parameters and commands are replaced, as if it stood between quotes. -/
def expandInside (e : Engine) (t : Text) : Run Text := do
  match (readParts (nestedTo nestingDepth) .document).run (sourceOf t 1 [] []) with
  | .ok (parts, _) => expandText e parts
  | .error _ => return t

def expandPattern (e : Engine) (w : Word) : Run (List Mark) := do
  return piecesMarks (← expandPieces e false w)

end Amalgam.Script
