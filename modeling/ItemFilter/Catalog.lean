import ItemFilter.Catalog.Builtin
import ItemFilter.Catalog.NameSet
import ItemFilter.Keyword

/-!
# Catalogs

A catalog holds the item classes and base types that rules may name. It starts from a list of known
names and grows by a whitelist.

## Main definitions

* `Catalog`: the known classes and bases
* `Catalog.builtin`: the catalog used when there is no other
* `Catalog.whitelist`: a catalog with further names
-/

namespace ItemFilter

/-- The names that rules may use. -/
structure Catalog where
  /-- The item classes. -/
  classes : NameSet := {}
  /-- The base types. -/
  bases : NameSet := {}
  deriving DecidableEq, Repr

namespace Catalog

/-- The catalog of the given classes and bases. -/
def ofNames (classes bases : List Text) : Catalog :=
  ⟨NameSet.ofList classes, NameSet.ofList bases⟩

/-- The catalog used when there is no other. -/
def builtin : Catalog :=
  ofNames (builtinClasses.map String.toList) (builtinBases.map String.toList)

/-- The catalog with further classes and bases. -/
def whitelist (catalog : Catalog) (classes bases : List Text) : Catalog :=
  ⟨catalog.classes.extend classes, catalog.bases.extend bases⟩

/-- The names of one kind. -/
def names (catalog : Catalog) : NameKind → NameSet
  | .classes => catalog.classes
  | .bases => catalog.bases

end Catalog

end ItemFilter
