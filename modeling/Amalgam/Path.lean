import Amalgam.Text.Lines

/-!
# Paths

A path is a text; slashes cut it into components.  Repeated slashes, a trailing slash and a dot that is
not the first component say nothing, so two texts with the same components are the same path for every
purpose but printing.  Joining and taking the parent work on the text and keep what they do not have to
change.

## Main definitions

* `Path`, `Path.components`, `Path.same` — a path, its components, and equality by components
* `Path.join`, `Path.parent?`
* `Path.fileName?`, `Path.stem?`, `Path.extension?` — the last component and its two parts
-/

namespace Amalgam

/-- A path as it is written. -/
structure Path where
  text : String
  deriving DecidableEq, Repr

/-- A component of a path. -/
inductive Path.Component where
  | root
  /-- A dot at the start of a relative path. -/
  | here
  | up
  | name (text : String)
  deriving DecidableEq, Repr

namespace Path

/-- The pieces between the slashes of a path's text. -/
def pieces (p : Path) : List (List Char) :=
  splitAt '/' p.text.toList

/-- Does the path start at the root? -/
def isAbsolute (p : Path) : Bool :=
  p.text.toList.head? == some '/'

/-- A piece that says nothing where it stands: an empty one, or a dot. -/
def isVoid (piece : List Char) : Bool :=
  piece == [] || piece == ['.']

/-- The component that a piece is. -/
def Component.ofPiece (piece : List Char) : Component :=
  if piece = ['.', '.'] then .up else .name (String.ofList piece)

/-- The components of a path. -/
def components (p : Path) : List Component :=
  match p.pieces with
  | [] => []
  | first :: rest =>
    let later := (rest.filter (!isVoid ·)).map Component.ofPiece
    if first = [] then
      if p.isAbsolute then .root :: later else later
    else if first = ['.'] then .here :: later
    else Component.ofPiece first :: later

/-- Have the paths the same components? -/
def same (p q : Path) : Bool :=
  p.components == q.components

/-- A path that starts from the directory `p`.  An absolute path stays as it is. -/
def join (p q : Path) : Path :=
  if q.isAbsolute || p.text.isEmpty then q
  else if p.text.toList.getLast? = some '/' then ⟨p.text ++ q.text⟩
  else ⟨p.text ++ "/" ++ q.text⟩

/-- The path of a named thing in the directory `p`. -/
def child (p : Path) (name : String) : Path :=
  p.join ⟨name⟩

/-- A list without the void pieces at its end. -/
def dropVoidEnd (pieces : List (List Char)) : List (List Char) :=
  (pieces.reverse.dropWhile isVoid).reverse

/-- The path without its last component; the root and the empty path have none to lose. -/
def parent? (p : Path) : Option Path :=
  match p.pieces with
  | [] => none
  | first :: rest =>
    match dropVoidEnd rest with
    | [] => if first = [] then none else some ⟨""⟩
    | later =>
      match first :: dropVoidEnd later.dropLast with
      | [[]] => some ⟨"/"⟩
      | kept => some ⟨String.ofList (joinWith '/' kept)⟩

/-- The last component, if it is a name. -/
def fileName? (p : Path) : Option String :=
  match p.components.getLast? with
  | some (.name text) => some text
  | _ => none

/-- A file name cut at its last dot.  A dot at the start begins no extension. -/
def splitExtension (name : List Char) : List Char × Option (List Char) :=
  match name.reverse.dropWhile (· != '.') with
  | _ :: before =>
    if before = [] then (name, none)
    else (before.reverse, some (name.reverse.takeWhile (· != '.')).reverse)
  | [] => (name, none)

/-- The file name without its extension. -/
def stem? (p : Path) : Option String :=
  p.fileName?.map fun name => String.ofList (splitExtension name.toList).1

/-- The extension of the file name. -/
def extension? (p : Path) : Option String :=
  p.fileName?.bind fun name => (splitExtension name.toList).2.map String.ofList

end Path

end Amalgam
