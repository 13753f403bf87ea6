import ItemFilter.Text.Lowercase

/-!
# Sets of names

A set of names remembers each name once, up to case, in the spelling it came in first. It covers a
value that occurs inside some name, up to case, so a part of a name is enough.

## Main definitions

* `NameSet`: the names, each with its lower-case form
* `NameSet.insert`, `NameSet.extend`: adding names that are not there yet
* `NameSet.covers`: whether a value occurs in a name
-/

namespace ItemFilter

open Text

/-- A name and its lower-case form. -/
structure NameEntry where
  /-- The name as it was added. -/
  name : Text
  /-- Its lower-case form. -/
  folded : Text
  deriving DecidableEq, Repr

/-- Names in the order they were added, no two of them equal up to case. -/
structure NameSet where
  /-- The names and their lower-case forms. -/
  entries : List NameEntry := []
  deriving DecidableEq, Repr

namespace NameSet

/-- Adds a name, unless a name equal up to case is there. -/
def insert (set : NameSet) (name : Text) : NameSet :=
  let folded := lowercase name
  if set.entries.any fun entry => entry.folded == folded then set
  else ⟨set.entries ++ [⟨name, folded⟩]⟩

/-- Adds names one after another. -/
def extend (set : NameSet) (names : List Text) : NameSet :=
  names.foldl insert set

/-- The set of the given names. -/
def ofList (names : List Text) : NameSet :=
  extend {} names

/-- The names in the order they were added. -/
def names (set : NameSet) : List Text :=
  set.entries.map NameEntry.name

/-- The number of names. -/
def size (set : NameSet) : Nat :=
  set.entries.length

/-- Whether a text occurs in another. -/
def occursIn (needle : Text) : Text → Bool
  | [] => needle.isEmpty
  | c :: text => needle.isPrefixOf (c :: text) || occursIn needle text

/-- Whether a value occurs in some name, up to case. -/
def covers (set : NameSet) (value : Text) : Bool :=
  set.entries.any fun entry => occursIn (lowercase value) entry.folded

end NameSet

end ItemFilter
