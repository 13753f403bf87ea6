import ItemFilter.Toml

/-!
# Building tables

A table comes into being by a header, by a dotted key, or on the way to another table, and this
decides who may add to it later. A tree keeps how its tables came into being while the statements of
a document are carried out, and is turned into a value at the end.

## Main definitions

* `Toml.Origin`, `Toml.Tree`: how a table came into being, and tables under construction
* `Toml.Table.assign`: a table with a key defined, possibly a dotted one
* `Toml.Table.openTable`, `Toml.Table.openArray`: a table with the table of a header in it
* `Toml.Table.assignAt`: a table with a key defined below a header
* `Toml.Table.members`: the members of a finished table
-/

namespace ItemFilter.Toml

/-- How a table came into being. -/
inductive Origin where
  /-- By a header of its own, or as a whole. -/
  | header
  /-- By a header of a table inside it. -/
  | passed
  /-- By a dotted key. -/
  | dotted
  deriving DecidableEq, Repr

/-- A value or a table under construction. -/
inductive Tree where
  /-- A value, which nothing can be added to. -/
  | value (value : Value)
  /-- A table. -/
  | table (origin : Origin) (members : List (Text × Tree))
  /-- An array of tables. Its last table can be added to. -/
  | tables (earlier : List (List (Text × Tree))) (last : List (Text × Tree))

/-- A table under construction. -/
structure Table where
  /-- How the table came into being. -/
  origin : Origin := .header
  /-- What was defined in it. -/
  entries : List (Text × Tree) := []

namespace Table

/-- The entry of a table with the given key. -/
def lookup? (key : Text) : List (Text × Tree) → Option Tree
  | [] => none
  | (name, tree) :: entries => if name = key then some tree else lookup? key entries

/-- The entries of a table with one of them set. -/
def setEntry (key : Text) (tree : Tree) : List (Text × Tree) → List (Text × Tree)
  | [] => [(key, tree)]
  | (name, old) :: entries =>
    if name = key then (key, tree) :: entries else (name, old) :: setEntry key tree entries

/-- The table with an entry set. -/
def set (table : Table) (key : Text) (tree : Tree) : Table :=
  { table with entries := setEntry key tree table.entries }

/-- Changes the table that a path leads to, through the last tables of arrays. Tables that are not
there come into being with the origin `fresh`. A dotted key leads only through tables without a
header of their own. -/
def change (fresh : Origin) (f : Table → Option Table) : List Text → Table → Option Table
  | [], table => f table
  | key :: path, table =>
    match lookup? key table.entries with
    | none => do
      let child ← change fresh f path { origin := fresh }
      some (table.set key (.table child.origin child.entries))
    | some (.value _) => none
    | some (.table origin entries) =>
      if fresh = .dotted ∧ origin = .header then none
      else do
        let child ← change fresh f path ⟨origin, entries⟩
        some (table.set key (.table child.origin child.entries))
    | some (.tables earlier last) => do
      let child ← change fresh f path { entries := last }
      some (table.set key (.tables earlier child.entries))

/-- The table with a new key. Behind the dots of a dotted key stands a table made by dotted keys,
and only there. -/
def define (path : List Text) (key : Text) (value : Value) (table : Table) : Option Table :=
  if table.origin = .dotted ↔ path = [] then none
  else if (lookup? key table.entries).isSome then none
  else some (table.set key (.value value))

/-- The table with a key defined, behind the dotted path in front of it. -/
def assign (path : List Text) (key : Text) (value : Value) (table : Table) : Option Table :=
  change .dotted (define path key value) path table

/-- The table with a key defined in the table of a header. -/
def assignAt (header path : List Text) (key : Text) (value : Value) (table : Table) :
    Option Table :=
  change .passed (assign path key value) header table

/-- The table with the table of a header opened in it. Only a table that headers have passed through
can be there already. -/
def openTable (path : List Text) (key : Text) (table : Table) : Option Table :=
  change .passed (fun parent =>
    match lookup? key parent.entries with
    | none => some (parent.set key (.table .header []))
    | some (.table .passed entries) => some (parent.set key (.table .header entries))
    | some _ => none) path table

/-- The table with a further table opened in the array of a header. -/
def openArray (path : List Text) (key : Text) (table : Table) : Option Table :=
  change .passed (fun parent =>
    match lookup? key parent.entries with
    | none => some (parent.set key (.tables [] []))
    | some (.tables earlier last) => some (parent.set key (.tables (earlier ++ [last]) []))
    | some _ => none) path table

end Table

mutual

/-- The value of a finished tree. -/
def Tree.finish : Tree → Value
  | .value value => value
  | .table _ entries => .table (finishEntries entries)
  | .tables earlier last => .array (finishTables earlier ++ [.table (finishEntries last)])

/-- The values of the entries of a finished table. -/
def finishEntries : List (Text × Tree) → List (Text × Value)
  | [] => []
  | (key, tree) :: entries => (key, tree.finish) :: finishEntries entries

/-- The values of finished tables. -/
def finishTables : List (List (Text × Tree)) → List Value
  | [] => []
  | entries :: tables => .table (finishEntries entries) :: finishTables tables

end

/-- The members of a finished table. -/
def Table.members (table : Table) : List (Text × Value) :=
  finishEntries table.entries

end ItemFilter.Toml
