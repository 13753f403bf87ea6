import ItemFilter.Catalog
import ItemFilter.Text.Lowercase
import ItemFilter.Text.Split

/-!
# The configuration

A configuration says which catalog to use, which names to add to it, whether to warn and whether to
use colours. What is not said is left to the commands. Every part of it is a setting with a key.

## Main definitions

* `Config`: what is configured
* `Setting`: the parts of a configuration, and their keys
* `Config.set`: the configuration with a setting changed
* `parseTruth?`, `parseNames`: how values of settings are written
-/

namespace ItemFilter

open Text

/-- What is configured. -/
structure Config where
  /-- Whether text ignored by the game is warned about. -/
  enableWarnings : Option Bool := none
  /-- The file of the catalog. -/
  catalog : Option String := none
  /-- Classes added to the catalog. -/
  classes : List Text := []
  /-- Bases added to the catalog. -/
  bases : List Text := []
  /-- Whether colours are used. -/
  color : Option Bool := none
  deriving DecidableEq, Repr

/-- The parts of a configuration. -/
inductive Setting where
  | enableWarnings
  | catalog
  | classes
  | bases
  | color
  deriving DecidableEq, Repr

namespace Setting

/-- All settings. -/
def all : List Setting :=
  [enableWarnings, catalog, classes, bases, color]

/-- The key of a setting. -/
def key : Setting → String
  | enableWarnings => "linter.enable_warnings"
  | catalog => "linter.catalog"
  | classes => "whitelist.classes"
  | bases => "whitelist.bases"
  | color => "output.color"

/-- The setting with a key. -/
def ofKey? (key : String) : Option Setting :=
  all.find? fun setting => setting.key = key

end Setting

/-- The words for true. -/
def wordsForTrue : List String := ["true", "yes", "1", "on"]

/-- The words for false. -/
def wordsForFalse : List String := ["false", "no", "0", "off"]

/-- The truth value that a word stands for, in any case. -/
def parseTruth? (word : String) : Option Bool :=
  let lower := String.ofList (lowercase word.toList)
  if wordsForTrue.contains lower then some true
  else if wordsForFalse.contains lower then some false
  else none

/-- The names of a list with commas between them. White space around a name does not count, and
neither do empty names. -/
def parseNames (text : Text) : List Text :=
  ((pieces ',' text).map trim).filter fun name => !name.isEmpty

namespace Config

/-- The configuration with a setting changed. `none` if the value does not fit the setting. -/
def set (config : Config) (setting : Setting) (value : String) : Option Config :=
  match setting with
  | .enableWarnings => (parseTruth? value).map fun b => { config with enableWarnings := some b }
  | .catalog => some { config with catalog := if value = "" then none else some value }
  | .classes => some { config with classes := parseNames value.toList }
  | .bases => some { config with bases := parseNames value.toList }
  | .color => (parseTruth? value).map fun b => { config with color := some b }

/-- A catalog with the configured names. -/
def extend (config : Config) (catalog : Catalog) : Catalog :=
  catalog.whitelist config.classes config.bases

end Config

end ItemFilter
