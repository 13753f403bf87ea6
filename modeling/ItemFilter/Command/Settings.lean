import ItemFilter.Command.Environment
import ItemFilter.Command.Error
import ItemFilter.Config.Reader
import ItemFilter.Config.Writer

/-!
# Working on the configuration

The configuration is read from its file, and a file that is not there stands for a configuration
without settings. It can be changed setting by setting, and a file to start from can be created.

## Main definitions

* `Config.load`: the configuration of an environment
* `Config.save`: a storage with the configuration written
* `Config.create`, `Config.change`: a storage with a new file, and with a setting changed
-/

namespace ItemFilter

/-- The path of the configuration file, which has to have a place. -/
def Environment.configPath (environment : Environment) : Except ConfigError String :=
  match environment.configPath? with
  | some path => .ok path
  | none => .error .noPlace

namespace Config

/-- The configuration in the file at a path. -/
def loadFrom (storage : Storage) (path : String) : Except ConfigError Config :=
  if storage.has path then
    match storage.readText path with
    | .error e => .error (.unreadable e)
    | .ok text =>
      match ofToml? text.toList with
      | some config => .ok config
      | none => .error .malformed
  else .ok {}

/-- The configuration of an environment. -/
def load (environment : Environment) (storage : Storage) : Except ConfigError Config := do
  loadFrom storage (← environment.configPath)

/-- A storage with a text written to a path, and with the directories around it. What was made
before a failure stays. -/
def writeAt (storage : Storage) (path text : String) (failure : StorageError → ConfigError) :
    Except ConfigError Unit × Storage :=
  match storage.makeParents path with
  | (.error e, made) => (.error (.noDirectory e), made)
  | (.ok (), made) =>
    match made.write path text with
    | .error e => (.error (failure e), made)
    | .ok written => (.ok (), written)

/-- A storage with a configuration written to a path. -/
def save (storage : Storage) (path : String) (config : Config) :
    Except ConfigError Unit × Storage :=
  writeAt storage path (String.ofList config.toToml) .notWritten

/-- A storage with a new configuration file at a path. -/
def create (storage : Storage) (path : String) : Except ConfigError Unit × Storage :=
  if storage.has path then (.error (.alreadyThere path), storage)
  else writeAt storage path (String.ofList template) .notCreated

/-- The configuration with the setting of a key changed. -/
def setKey (config : Config) (key value : String) : Except ConfigError Config :=
  match Setting.ofKey? key with
  | none => .error (.unknownKey key)
  | some setting =>
    match config.set setting value with
    | some config => .ok config
    | none => .error (.badTruth value)

/-- A storage with a setting changed in the configuration file at a path. -/
def change (storage : Storage) (path key value : String) : Except ConfigError Unit × Storage :=
  match loadFrom storage path with
  | .error e => (.error e, storage)
  | .ok config =>
    match config.setKey key value with
    | .error e => (.error e, storage)
    | .ok config => save storage path config

end Config

end ItemFilter
