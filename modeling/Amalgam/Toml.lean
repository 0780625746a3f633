/-!
# TOML documents

Texts, lists, tables, and scalars, of which only the form matters to settings.  A table remembers how it
came about, because that decides what may still be added to it: a header may complete a table that other
headers only implied, dotted keys may extend a table that dotted keys made, and nothing may be added to an
inline table.
No key is given twice.

## Main definitions

* `Toml.Value`, `Toml.Origin` — values, and how a table came about
* `Toml.assign` — a value for a dotted key
* `Toml.openTable` — the table of a header
* `Toml.within` — a change to the table at a path
* `Toml.Item`, `Toml.document` — the lines of a document, and the tables they make
-/

namespace Amalgam.Toml

/-- How a table came about. -/
inductive Origin where
  /-- A longer header goes through it. -/
  | implied
  /-- A dotted key goes through it. -/
  | dotted
  /-- It has a header of its own. -/
  | header
  /-- It is written between braces. -/
  | inline
  deriving DecidableEq, Repr

/-- The values of a document. -/
inductive Value where
  | text (content : String)
  /-- A number, truth value, date or time, as it is written. -/
  | scalar (written : String)
  | list (items : List Value)
  | table (origin : Origin) (fields : List (String × Value))

/-- The keys of a table and their values. -/
abbrev Fields := List (String × Value)

/-- The fields with another value for a key that is there. -/
def replace (key : String) (value : Value) (fields : Fields) : Fields :=
  fields.map fun (other, old) => if other = key then (other, value) else (other, old)

/-- A value for a dotted key.  The key must be new; the tables it goes through must be new or open to
dotted keys, and the innermost of them must have been made by dotted keys. -/
def assign (value : Value) : List String → Fields → Option Fields
  | [], _ => none
  | [key], fields =>
    if (fields.lookup key).isSome then none else some (fields ++ [(key, value)])
  | key :: rest, fields =>
    match fields.lookup key with
    | none => (assign value rest []).map fun inner => fields ++ [(key, .table .dotted inner)]
    | some (.table .dotted inner) =>
      (assign value rest inner).map fun inner => replace key (.table .dotted inner) fields
    | some (.table .implied inner) =>
      if rest.length = 1 then none
      else (assign value rest inner).map fun inner => replace key (.table .implied inner) fields
    | some _ => none

/-- The table of a header.  It must be new, or only implied so far. -/
def openTable : List String → Fields → Option Fields
  | [], _ => none
  | [key], fields =>
    match fields.lookup key with
    | none => some (fields ++ [(key, .table .header [])])
    | some (.table .implied inner) => some (replace key (.table .header inner) fields)
    | some _ => none
  | key :: rest, fields =>
    match fields.lookup key with
    | none => (openTable rest []).map fun inner => fields ++ [(key, .table .implied inner)]
    | some (.table .inline _) => none
    | some (.table origin inner) =>
      (openTable rest inner).map fun inner => replace key (.table origin inner) fields
    | some _ => none

/-- A change to the table at a path. -/
def within (change : Fields → Option Fields) : List String → Fields → Option Fields
  | [], fields => change fields
  | key :: rest, fields =>
    match fields.lookup key with
    | some (.table origin inner) =>
      (within change rest inner).map fun inner => replace key (.table origin inner) fields
    | _ => none

/-- A line of a document that says something. -/
inductive Item where
  | header (path : List String)
  | field (key : List String) (value : Value)

/-- The fields of a document: `path` is the table that fields belong to. -/
def fieldsFrom (path : List String) (fields : Fields) : List Item → Option Fields
  | [] => some fields
  | .header path :: rest => (openTable path fields).bind (fieldsFrom path · rest)
  | .field key value :: rest =>
    (within (assign value key) path fields).bind (fieldsFrom path · rest)

/-- The fields of a document. -/
def document (items : List Item) : Option Fields :=
  fieldsFrom [] [] items

/-- The fields of an inline table. -/
def inlineFields (pairs : List (List String × Value)) : Option Fields :=
  pairs.foldlM (fun fields (key, value) => assign value key fields) []

end Amalgam.Toml
