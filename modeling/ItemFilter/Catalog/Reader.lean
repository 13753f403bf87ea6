import ItemFilter.Catalog
import ItemFilter.Json.Reader

/-!
# Catalogs in JSON

A catalog file is an object with up to four lists of names, or an array of these lists in order.
Lists that are not there are empty, and members of other names are passed over.

## Main definitions

* `Catalog.Data`: the four lists
* `Catalog.ofJson?`: the catalog described by a text
-/

namespace ItemFilter.Catalog

open Json

/-- The lists of a catalog file, as far as they are there. -/
structure Data where
  /-- The item classes. -/
  classes : Option (List Text) := none
  /-- The base types. -/
  bases : Option (List Text) := none
  /-- Classes added to the others. -/
  whitelistClasses : Option (List Text) := none
  /-- Bases added to the others. -/
  whitelistBases : Option (List Text) := none
  deriving DecidableEq, Repr

namespace Data

/-- The data with a member read from the front of a text, and the text behind it. A member with the
name of a list can be there only once. -/
def readMember (data : Data) (name : Text) (text : Text) : Option (Data × Text) :=
  if name = "classes".toList then
    if data.classes.isSome then none
    else (readStrings text).map fun (names, rest) => ({ data with classes := some names }, rest)
  else if name = "bases".toList then
    if data.bases.isSome then none
    else (readStrings text).map fun (names, rest) => ({ data with bases := some names }, rest)
  else if name = "whitelistClasses".toList then
    if data.whitelistClasses.isSome then none
    else (readStrings text).map fun (names, rest) =>
      ({ data with whitelistClasses := some names }, rest)
  else if name = "whitelistBases".toList then
    if data.whitelistBases.isSome then none
    else (readStrings text).map fun (names, rest) =>
      ({ data with whitelistBases := some names }, rest)
  else (skipValue text).map fun rest => (data, rest)

/-- Reads the members of an object and its closing brace. -/
def readMembers : Nat → Data → Text → Option (Data × Text)
  | 0, _, _ => none
  | fuel + 1, data, text => do
    let (name, text) ← readString (skipSpace text)
    match skipSpace text with
    | ':' :: text =>
      let (data, text) ← data.readMember name (skipSpace text)
      match skipSpace text with
      | ',' :: text => readMembers fuel data text
      | '\x7d' :: text => some (data, text)
      | _ => none
    | _ => none

/-- Reads the lists of an array and its closing bracket. -/
def readLists : Nat → Text → Option (List (List Text) × Text)
  | 0, _ => none
  | fuel + 1, text => do
    let (names, text) ← readStrings (skipSpace text)
    match skipSpace text with
    | ',' :: text =>
      let (lists, rest) ← readLists fuel text
      some (names :: lists, rest)
    | ']' :: text => some ([names], text)
    | _ => none

/-- The data of up to four lists in order. -/
def ofLists? (lists : List (List Text)) : Option Data :=
  if lists.length ≤ 4 then some ⟨lists[0]?, lists[1]?, lists[2]?, lists[3]?⟩ else none

/-- Reads the data of a catalog file. -/
def read : Text → Option (Data × Text)
  | '\x7b' :: text =>
    match skipSpace text with
    | '\x7d' :: rest => some ({}, rest)
    | text => readMembers (text.length + 1) {} text
  | '[' :: text =>
    match skipSpace text with
    | ']' :: rest => some ({}, rest)
    | text => (readLists (text.length + 1) text).bind fun (lists, rest) =>
        (ofLists? lists).map fun data => (data, rest)
  | _ => none

/-- The catalog that the lists describe. -/
def catalog (data : Data) : Catalog :=
  (Catalog.ofNames (data.classes.getD []) (data.bases.getD [])).whitelist
    (data.whitelistClasses.getD []) (data.whitelistBases.getD [])

end Data

/-- The catalog described by a text, if the text is a catalog file. -/
def ofJson? (text : Text) : Option Catalog :=
  match Data.read (skipSpace text) with
  | some (data, rest) => if (skipSpace rest).isEmpty then some data.catalog else none
  | none => none

end ItemFilter.Catalog
