import ItemFilter.Config
import ItemFilter.Document
import ItemFilter.Storage

/-!
# Failures of commands

Why a command fails, the wording of it, and the exit status that goes with it.

## Main definitions

* `ConfigError`: why a configuration cannot be found, read, changed or written
* `CommandError`: why a command fails
* `CommandError.message`, `CommandError.code`, `CommandError.exitStatus`: how a failure is told
-/

namespace ItemFilter

/-- Why something about the configuration fails. -/
inductive ConfigError where
  /-- There is no place for the configuration file. -/
  | noPlace
  /-- The configuration file cannot be read. -/
  | unreadable (error : StorageError)
  /-- The configuration file is no configuration. -/
  | malformed
  /-- There is no setting with this key. -/
  | unknownKey (key : String)
  /-- This word is no truth value. -/
  | badTruth (word : String)
  /-- The configuration file is there already. -/
  | alreadyThere (path : String)
  /-- The directories around the configuration file cannot be made. -/
  | noDirectory (error : StorageError)
  /-- A new configuration file cannot be written. -/
  | notCreated (error : StorageError)
  /-- The changed configuration file cannot be written. -/
  | notWritten (error : StorageError)
  deriving DecidableEq, Repr

/-- The wording of a configuration error. -/
def ConfigError.message : ConfigError → String
  | noPlace => "Could not determine config directory"
  | unreadable e => s!"Failed to read config: {e.message}"
  | malformed => "Failed to parse config"
  | unknownKey key =>
    s!"Unknown config key '{key}'. Valid keys: " ++ ", ".intercalate (Setting.all.map Setting.key)
  | badTruth word =>
    s!"Invalid boolean value '{word}'. Use true/false, yes/no, 1/0, or on/off"
  | alreadyThere path => s!"Config file already exists at {path}"
  | noDirectory e => s!"Failed to create config directory: {e.message}"
  | notCreated e => s!"Failed to create config file: {e.message}"
  | notWritten e => s!"Failed to write config: {e.message}"

/-- Why a command fails. -/
inductive CommandError where
  /-- A catalog file cannot be read. -/
  | unreadableCatalog (path : String) (error : StorageError)
  /-- A catalog file is no catalog. -/
  | malformedCatalog
  /-- A filter cannot be read. -/
  | unreadable (path : String) (error : StorageError)
  /-- A filter cannot be written. -/
  | unwritable (path : String) (error : StorageError)
  /-- A filter cannot be linted or edited. -/
  | document (error : DocumentError)
  /-- A single line cannot be scanned. -/
  | line (error : ScanError)
  /-- Something about the configuration fails. -/
  | config (error : ConfigError)
  /-- The check found this many errors. -/
  | errorsFound (count : Nat)
  deriving DecidableEq, Repr

namespace CommandError

/-- The wording of a failure. -/
def message : CommandError → String
  | unreadableCatalog path e =>
    s!"catalog error: failed to read catalog file '{path}': {e.message}"
  | malformedCatalog => "catalog error: failed to parse catalog"
  | unreadable path e => s!"document error: failed to read '{path}': {e.message}"
  | unwritable path e => s!"document error: failed to write '{path}': {e.message}"
  | document e => s!"document error: {e.message}"
  | line e => s!"parse error: {e.message}"
  | config e => s!"configuration error: {e.message}"
  | errorsFound count => s!"found {count} error(s)"

/-- The code of a failure, for other programs. -/
def code : CommandError → String
  | unreadableCatalog _ _ | malformedCatalog => "CATALOG_ERROR"
  | unreadable _ _ | unwritable _ _ | document _ => "DOCUMENT_ERROR"
  | line _ => "PARSE_ERROR"
  | config _ => "CONFIG_ERROR"
  | errorsFound _ => "LINT_FAILED"

/-- The exit status that goes with a failure. -/
def exitStatus : CommandError → Nat
  | unreadable _ _ | unwritable _ _ => 3
  | unreadableCatalog _ _ | malformedCatalog | config _ => 5
  | document _ | line _ | errorsFound _ => 1

end CommandError

end ItemFilter
