/-!
# Maps by name

A map from names to values, kept as a list sorted by name, so that going through it is going through the
names in order.

## Main definitions

* `NameMap`, `NameMap.find?`
* `NameMap.insert` — a later value replaces an earlier one
* `NameMap.insertNew` — an earlier value stays
* `insertLast` — a list as a set in order of first insertion
* `freshName` — the first of `base`, `base_2`, `base_3`, … that is not taken
-/

namespace Amalgam

/-- A map from names to values, sorted by name. -/
structure NameMap (α : Type) where
  entries : List (String × α) := []
  deriving DecidableEq, Repr

namespace NameMap

variable {α : Type}

/-- The value of a name. -/
def find? (m : NameMap α) (name : String) : Option α :=
  m.entries.lookup name

/-- Has the name a value? -/
def contains (m : NameMap α) (name : String) : Bool :=
  (m.find? name).isSome

/-- A sorted list with one more entry, in place of one of the same name. -/
def insertEntry (name : String) (value : α) : List (String × α) → List (String × α)
  | [] => [(name, value)]
  | (other, old) :: rest =>
    if name = other then (name, value) :: rest
    else if name < other then (name, value) :: (other, old) :: rest
    else (other, old) :: insertEntry name value rest

/-- The map with a value for the name, in place of any other. -/
def insert (m : NameMap α) (name : String) (value : α) : NameMap α :=
  ⟨insertEntry name value m.entries⟩

/-- The map with a value for the name, unless it has one. -/
def insertNew (m : NameMap α) (name : String) (value : α) : NameMap α :=
  if m.contains name then m else m.insert name value

end NameMap

/-- A list with one more element at its end, unless the list holds it. -/
def insertLast {α : Type} [BEq α] (xs : List α) (x : α) : List α :=
  if xs.contains x then xs else xs ++ [x]

/-- A name with a number added. -/
def numbered (base : String) (n : Nat) : String :=
  base ++ "_" ++ Nat.repr n

/-- The first free name of `numbered base n`, `numbered base (n + 1)`, …, after at most `tries` taken
ones. -/
def freshFrom (taken : List String) (base : String) : Nat → Nat → String
  | 0, n => numbered base n
  | tries + 1, n =>
    if taken.contains (numbered base n) then freshFrom taken base tries (n + 1) else numbered base n

/-- The first of `base`, `base_2`, `base_3`, … that is not taken.  The number is at most one more than there
are taken names, so a counter of 32 bits does for two thousand million of them. -/
def freshName (taken : List String) (base : String) : String :=
  if taken.contains base then freshFrom taken base taken.length 2 else base

end Amalgam
