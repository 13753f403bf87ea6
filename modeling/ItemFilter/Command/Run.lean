import ItemFilter.Command.Check.Listing
import ItemFilter.Command.Keywords
import ItemFilter.Command.Settings

/-!
# Running commands

A command is run in an environment and a storage. What comes of it is its output, the storage after
it, and the failure if there was one.

## Main definitions

* `RunOutcome`: what comes of a command, and `RunOutcome.exitStatus`: how it is told to the caller
* `Invocation.run`: an invocation run
-/

namespace ItemFilter

open Json

/-- What comes of a command. -/
structure RunOutcome where
  /-- What is printed. -/
  output : String := ""
  /-- Why the command failed, if it did. -/
  failure : Option CommandError := none
  /-- The storage after the command. -/
  storage : Storage

/-- The exit status that goes with what came of a command. -/
def RunOutcome.exitStatus (outcome : RunOutcome) : Nat :=
  match outcome.failure with
  | none => 0
  | some failure => failure.exitStatus

/-- What a command is run with. -/
structure Context where
  /-- The flags of the invocation. -/
  flags : Flags
  /-- Whether colours are used. -/
  colors : Bool
  /-- The environment. -/
  environment : Environment
  /-- The configuration. -/
  config : Config
  /-- The storage before the command. -/
  storage : Storage

namespace Context

/-- A command that prints a text. -/
def prints (context : Context) (output : String) : RunOutcome :=
  { output, storage := context.storage }

/-- A command that fails before it did anything. -/
def fails (context : Context) (failure : CommandError) : RunOutcome :=
  { failure := some failure, storage := context.storage }

/-- A value as it is printed. -/
def printed (value : Json) : String :=
  value.render ++ "\n"

/-! ## Lines and files -/

/-- Checks files. -/
def check (context : Context) (options : CheckOptions) : RunOutcome :=
  match context.config.classifier context.storage options.catalog options.noWarnings with
  | .error e => context.fails e
  | .ok c =>
    match c.checkFiles options.fix options.files context.storage with
    | (.error e, storage) => { failure := some e, storage }
    | (.ok files, storage) =>
      let total := totalReport files
      { output :=
          if context.flags.json then printed (checkJson files)
          else listingText context.flags context.colors files
        failure := if total.hasErrors then some (.errorsFound total.errors) else none
        storage }

/-- Classifies a line. -/
def parse (context : Context) (line : String) : RunOutcome :=
  match context.config.classifier context.storage none false with
  | .error e => context.fails e
  | .ok c =>
    match c.parse {} line.toList with
    | .error e => context.fails (.line e)
    | .ok result => context.prints (printed result.toJson)

/-- Lists the keywords. -/
def keywords (context : Context) : RunOutcome :=
  context.prints <|
    if context.flags.json then printed keywordsJson else linesText context.colors keywordTable

/-! ## The configuration -/

/-- A setting as a line, if it is made. -/
def settingLine {α : Type} (name : String) (shown : α → String) :
    Option α → List (List Piece)
  | some value => [[⟨"  " ++ name ++ ": " ++ shown value, []⟩]]
  | none => []

/-- Names as a line, if there are any. -/
def namesLine (name : String) (names : List Text) : List (List Piece) :=
  if names.isEmpty then []
  else [[⟨"  " ++ name ++ ": " ++ ", ".intercalate (names.map String.ofList), []⟩]]

/-- A truth value in a word. -/
def truthWord (b : Bool) : String :=
  if b then "true" else "false"

/-- The settings that are made, under the titles of their sections. -/
def settingLines (config : Config) : List (List Piece) :=
  [[⟨"[linter]", []⟩]] ++
  settingLine "enable_warnings" truthWord config.enableWarnings ++
  settingLine "catalog" id config.catalog ++
  [[], [⟨"[whitelist]", []⟩]] ++
  namesLine "classes" config.classes ++
  namesLine "bases" config.bases ++
  [[], [⟨"[output]", []⟩]] ++
  settingLine "color" truthWord config.color

/-- The configuration file and what it says, as lines of pieces. -/
def configLines (path : String) (present : Bool) (config : Config) : List (List Piece) :=
  [[⟨"Configuration", [.bold, .green]⟩], [], [⟨"File: " ++ path, []⟩],
    [⟨"Exists: " ++ truthWord present, []⟩], []] ++
  if present then settingLines config
  else [[⟨"(No config file exists. Run 'filterlint config init' to create one.)", []⟩]]

/-- Shows the configuration. -/
def showConfig (context : Context) (path : String) : RunOutcome :=
  match Config.loadFrom context.storage path with
  | .error e => context.fails (.config e)
  | .ok config =>
    let present := context.storage.has path
    context.prints <|
      if context.flags.json then
        printed (object
          [("config", config.toJson), ("exists", boolean present), ("path", string path)])
      else if context.flags.quiet then ""
      else linesText context.colors (configLines path present config)

/-- A change of the configuration file, with the text that reports its success. -/
def reports (context : Context) (changed : Except ConfigError Unit × Storage) (asJson : Json)
    (asText : String) : RunOutcome :=
  match changed with
  | (.error e, storage) => { failure := some (.config e), storage }
  | (.ok (), storage) =>
    { output :=
        if context.flags.json then printed asJson
        else if context.flags.quiet then ""
        else asText ++ "\n"
      storage }

/-- Creates the configuration file. -/
def initConfig (context : Context) (path : String) : RunOutcome :=
  context.reports (Config.create context.storage path)
    (object [("path", string path), ("status", string "created")])
    ("Created default config at: " ++ path)

/-- Changes a setting. -/
def setConfig (context : Context) (path key value : String) : RunOutcome :=
  context.reports (Config.change context.storage path key value)
    (object
      [("key", string key), ("path", string path), ("status", string "success"),
       ("value", string value)])
    ("Set " ++ key ++ " = " ++ value)

/-- Shows where the configuration file is. -/
def showPath (context : Context) (path : String) : RunOutcome :=
  context.prints <|
    if context.flags.json then
      printed (object [("exists", boolean (context.storage.has path)), ("path", string path)])
    else path ++ "\n"

/-- Works on the configuration. -/
def configure (context : Context) (command : ConfigCommand) : RunOutcome :=
  match context.environment.configPath with
  | .error e => context.fails (.config e)
  | .ok path =>
    match command with
    | .show => context.showConfig path
    | .init => context.initConfig path
    | .set key value => context.setConfig path key value
    | .path => context.showPath path

/-- Runs a command. The script that completes commands in a shell is made by the library that reads
the command line and is left out, so nothing is printed when it is asked for. -/
def run (context : Context) : Command → RunOutcome
  | .check options => context.check options
  | .parse line => context.parse line
  | .keywords => context.keywords
  | .config command => context.configure command
  | .completions _ => context.prints ""

end Context

namespace Invocation

/-- The configuration that a command is run with. A broken configuration file stands in the way of
every command but those that work on it. -/
def config (invocation : Invocation) (environment : Environment) (storage : Storage) :
    Except ConfigError Config :=
  match Config.load environment storage, invocation.command with
  | .error _, .config _ => .ok {}
  | loaded, _ => loaded

/-- Runs an invocation. Colours are used unless a flag, the environment or the configuration is
against them. -/
def run (invocation : Invocation) (environment : Environment) (storage : Storage) : RunOutcome :=
  match invocation.config environment storage with
  | .error e => { failure := some (.config e), storage }
  | .ok config =>
    let flags := invocation.flags
    let colors := !flags.noColor && environment.allowsColor && config.color.getD true
    Context.run { flags, colors, environment, config, storage } invocation.command

end Invocation

end ItemFilter
