import ItemFilter.Config
import ItemFilter.Toml.Reader

/-!
# Reading a configuration

A configuration file is a TOML document with a version and three tables, all of them optional. Keys
of other names are passed over, and a known key has to have a value of its kind. A table may also be
given as an array with the values in the order of the settings.

## Main definitions

* `Config.Section`: the settings of a table, by key or by place
* `Config.ofToml?`: the configuration that a text describes
-/

namespace ItemFilter.Config

open Toml

/-- The values of a section of the configuration. -/
inductive Section where
  /-- Values by key. -/
  | keyed (members : List (Text × Toml.Value))
  /-- Values by place. -/
  | placed (items : List Toml.Value)

namespace Section

/-- The section that a value stands for. A section that is not there has no values, and a date
counts as a table without known keys. -/
def ofValue? : Option Toml.Value → Option Section
  | none => some (keyed [])
  | some (.table members) => some (keyed members)
  | some (.array items) => some (placed items)
  | some .dateTime => some (keyed [])
  | some _ => none

/-- The value with a key or at a place, if there is one. -/
def value? (sec : Section) (key : String) (place : Nat) : Option Toml.Value :=
  match sec with
  | keyed members => member? key members
  | placed items => items[place]?

/-- Whether values have to be there: those of the first `count` places, if values go by place. -/
def complete (sec : Section) (count : Nat) : Bool :=
  match sec with
  | keyed _ => true
  | placed items => count ≤ items.length

end Section

/-- A truth value that may be missing. `none` if the value is of another kind. -/
def truth? : Option Toml.Value → Option (Option Bool)
  | none => some none
  | some (.boolean b) => some (some b)
  | some _ => none

/-- A string that may be missing. `none` if the value is of another kind. -/
def string? : Option Toml.Value → Option (Option String)
  | none => some none
  | some (.string text) => some (some (String.ofList text))
  | some _ => none

/-- The text of a string. -/
def text? : Toml.Value → Option Text
  | .string text => some text
  | _ => none

/-- A list of strings, empty if it is missing. `none` if the value is of another kind. -/
def strings? : Option Toml.Value → Option (List Text)
  | none => some []
  | some (.array items) => items.mapM text?
  | some _ => none

/-- Whether a value can be the version of a configuration. -/
def isVersion : Option Toml.Value → Bool
  | none => true
  | some (.integer n) => 0 ≤ n && n ≤ 4294967295
  | some _ => false

/-- The configuration that the members of a document describe. -/
def ofMembers? (members : List (Text × Toml.Value)) : Option Config := do
  let linter ← Section.ofValue? (member? "linter" members)
  let whitelist ← Section.ofValue? (member? "whitelist" members)
  let output ← Section.ofValue? (member? "output" members)
  let enableWarnings ← truth? (linter.value? "enable_warnings" 0)
  let catalog ← string? (linter.value? "catalog" 1)
  let classes ← strings? (whitelist.value? "classes" 0)
  let bases ← strings? (whitelist.value? "bases" 1)
  let color ← truth? (output.value? "color" 0)
  if isVersion (member? "version" members) && linter.complete 2 && output.complete 1 then
    some { enableWarnings, catalog, classes, bases, color }
  else none

/-- The configuration that a text describes. -/
def ofToml? (text : Text) : Option Config :=
  (Toml.read text).bind ofMembers?

end ItemFilter.Config
