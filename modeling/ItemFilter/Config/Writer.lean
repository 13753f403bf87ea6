import ItemFilter.Config
import ItemFilter.Json
import ItemFilter.Toml.Spelling

/-!
# Writing a configuration

A configuration is written as a TOML document with the version and the three tables. Settings that
are not made are left out, the headers of the tables are not.

## Main definitions

* `Config.toToml`: a configuration as a TOML document
* `Config.toJson`: a configuration as a JSON object
* `Config.template`: the document a new configuration file starts from
-/

namespace ItemFilter.Config

open Toml Json

/-- The version of the form in which configurations are written. -/
def version : Nat := 1

/-- A truth value as it is written. -/
def spellTruth (b : Bool) : Text :=
  if b then "true".toList else "false".toList

/-- The line of a key. -/
def keyLine (key : String) (value : Text) : Text :=
  key.toList ++ " = ".toList ++ value ++ ['\n']

/-- The line of a key, if it has a value. -/
def optionalLine {α : Type} (key : String) (spell : α → Text) : Option α → Text
  | some value => keyLine key (spell value)
  | none => []

/-- The lines of a key with a list, unless it is empty. -/
def listLines (key : String) (texts : List Text) : Text :=
  if texts.isEmpty then [] else keyLine key (spellStrings texts)

/-- The header of a table. -/
def header (name : String) : Text :=
  "\n[".toList ++ name.toList ++ "]\n".toList

/-- A configuration as a TOML document. -/
def toToml (config : Config) : Text :=
  keyLine "version" (Nat.toDigits 10 version) ++
    header "linter" ++
    optionalLine "enable_warnings" spellTruth config.enableWarnings ++
    optionalLine "catalog" (fun path => spellString path.toList) config.catalog ++
    header "whitelist" ++
    listLines "classes" config.classes ++
    listLines "bases" config.bases ++
    header "output" ++
    optionalLine "color" spellTruth config.color

/-- A list of names as a member of an object, unless it is empty. -/
def namesMember (name : String) (names : List Text) : List (String × Json) :=
  if names.isEmpty then [] else [(name, array (names.map ofText))]

/-- A configuration as a JSON object, its keys in alphabetical order. -/
def toJson (config : Config) : Json :=
  object
    [("linter", object <|
        optionalMember "catalog" string config.catalog ++
        optionalMember "enable_warnings" boolean config.enableWarnings),
     ("output", object <| optionalMember "color" boolean config.color),
     ("version", ofCount version),
     ("whitelist", object <|
        namesMember "bases" config.bases ++ namesMember "classes" config.classes)]

/-- The lines a new configuration file starts from. They make no setting, and show how to make
them. -/
def templateLines : List String :=
  ["# filterlint - Item Filter Linter Configuration",
   "",
   "# Config schema version (do not modify)",
   "version = 1",
   "",
   "[linter]",
   "# enable_warnings = true               # Warn about ignored text after Show/Hide",
   "# catalog = \"/path/to/catalog.json\"    # Replaces the built-in class/base catalog",
   "",
   "# Extra names accepted by Class and BaseType",
   "[whitelist]",
   "# classes = [\"Incubator\"]",
   "# bases = [\"Fertile Catalyst\"]",
   "",
   "# Output preferences",
   "[output]",
   "# color = true                         # Enable colors (respects NO_COLOR env)"]

/-- The document a new configuration file starts from. -/
def template : Text :=
  templateLines.flatMap fun line => line.toList ++ ['\n']

end ItemFilter.Config
