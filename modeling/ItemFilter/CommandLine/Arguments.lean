import ItemFilter.CommandLine
import ItemFilter.Text.Split

/-!
# Reading arguments

Arguments are read level by level: those in front of the command, those of the command, and for the
configuration those of its command. Each level knows the options it understands and how many values
it takes. The values of an argument are looked at when the next option begins or the level ends, so
an unknown option is reported before a bad value in front of it.

## Main definitions

* `Level`: the levels, with their options, values and commands
* `Argument`: an argument by its form
* `Reading`: what was read of a level
* `CommandLine.read`: the invocation that arguments stand for
-/

namespace ItemFilter

/-! ## Levels -/

/-- Options that are given or not. -/
inductive Flag where
  | verbose
  | quiet
  | json
  | noColor
  | fix
  | noWarnings
  deriving DecidableEq, Repr

/-- Options. -/
inductive CommandOption where
  | flag (flag : Flag)
  | catalog
  | help
  | version
  deriving DecidableEq, Repr

/-- The places of a command line: in front of a command, or behind it. -/
inductive Level where
  | top
  | check
  | parse
  | keywords
  | completions
  | config
  | configShow
  | configInit
  | configSet
  | configPath
  deriving DecidableEq, Repr

namespace Level

/-- The level behind a command, if the level has that command. -/
def command? : Level → String → Option Level
  | top, "check" | top, "c" => some check
  | top, "parse" => some parse
  | top, "keywords" => some keywords
  | top, "config" => some config
  | top, "completions" => some completions
  | config, "show" => some configShow
  | config, "init" => some configInit
  | config, "set" => some configSet
  | config, "path" => some configPath
  | _, _ => none

/-- Whether a level has commands. -/
def hasCommands : Level → Bool
  | top | config => true
  | _ => false

/-- The option with a name. -/
def option? (level : Level) (name : String) : Option CommandOption :=
  match name with
  | "verbose" => some (.flag .verbose)
  | "quiet" => some (.flag .quiet)
  | "json" => some (.flag .json)
  | "no-color" => some (.flag .noColor)
  | "help" => some .help
  | "version" => some .version
  | "fix" => if level = check then some (.flag .fix) else none
  | "no-warnings" => if level = check then some (.flag .noWarnings) else none
  | "catalog" => if level = check then some .catalog else none
  | _ => none

/-- The option with a letter. -/
def letter? : Char → Option CommandOption
  | 'v' => some (.flag .verbose)
  | 'q' => some (.flag .quiet)
  | 'h' => some .help
  | 'V' => some .version
  | _ => none

/-- The least number of values that a level takes. -/
def fewestValues : Level → Nat
  | check | parse | completions => 1
  | configSet => 2
  | _ => 0

/-- Whether a level takes a further value behind `count` others. -/
def takesValue (level : Level) (count : Nat) : Bool :=
  level = check || count < level.fewestValues

/-- The shells that completions can be asked for. -/
def shells : List String := ["bash", "zsh", "fish", "powershell"]

/-- Whether a value is allowed. A file needs a name, and a shell has to be a known one. -/
def allows : Level → String → Bool
  | check, value => value ≠ ""
  | completions, value => shells.contains value
  | _, _ => true

end Level

/-! ## Arguments -/

/-- An argument by its form. -/
inductive Argument where
  /-- Two dashes alone: only values follow. -/
  | escape
  /-- Two dashes and a name, possibly with a value behind an equals sign. -/
  | long (name : String) (value : Option String)
  /-- A dash and letters. -/
  | short (letters : List Char)
  /-- Anything else. -/
  | word
  deriving DecidableEq, Repr

/-- The form of an argument. -/
def Argument.ofString (argument : String) : Argument :=
  match argument.toList with
  | ['-', '-'] => .escape
  | '-' :: '-' :: rest =>
    let name := rest.takeWhile (· ≠ '=')
    let value := (rest.drop name.length).tail
    .long (String.ofList name)
      (if name.length < rest.length then some (String.ofList value) else none)
  | '-' :: c :: letters => .short (c :: letters)
  | _ => .word

/-! ## One level -/

/-- An argument whose values have not been looked at. -/
inductive Pending where
  /-- There is none. -/
  | nothing
  /-- Values of the level. -/
  | values (values : List String)
  /-- The option for a catalog, with its value if that was read. -/
  | catalog (value : Option String)
  deriving DecidableEq, Repr

/-- What was read of a level. -/
structure Reading where
  /-- The flags that were given. -/
  flags : List Flag := []
  /-- The catalog that was given. -/
  catalog : Option String := none
  /-- The values that were given. -/
  values : List String := []
  /-- What has not been looked at. -/
  pending : Pending := .nothing
  deriving DecidableEq, Repr

namespace Reading

/-- Takes the value of the option for a catalog. It stands once and is a path. -/
def setCatalog (value : String) (reading : Reading) : Except UsageError Reading :=
  if reading.catalog.isSome then .error .argumentConflict
  else if value = "" then .error .invalidValue
  else .ok { reading with catalog := some value }

/-- Looks at what was put off. -/
def settle (level : Level) (reading : Reading) : Except UsageError Reading :=
  let settled := { reading with pending := .nothing }
  match reading.pending with
  | .nothing => .ok settled
  | .values values =>
    if values.all level.allows then .ok { settled with values := reading.values ++ values }
    else .error .invalidValue
  | .catalog none => .error .invalidValue
  | .catalog (some value) => settled.setCatalog value

/-- Takes an option, possibly with a value attached to it. -/
def takeOption (level : Level) (option : CommandOption) (value : Option String)
    (reading : Reading) : Except UsageError Reading :=
  match option, value with
  | .catalog, some value => do (← reading.settle level).setCatalog value
  | .catalog, none => do return { ← reading.settle level with pending := .catalog none }
  | _, some _ => .error .tooManyValues
  | .flag flag, none => do
    let reading ← reading.settle level
    if reading.flags.contains flag then .error .argumentConflict
    else return { reading with flags := reading.flags ++ [flag] }
  | .help, none => do
    let _ ← reading.settle level
    .error .helpAsked
  | .version, none => do
    let _ ← reading.settle level
    .error .versionAsked

/-- Takes options given by their letters. -/
def takeLetters (level : Level) (letters : List Char) (reading : Reading) :
    Except UsageError Reading :=
  letters.foldlM (fun reading letter =>
    match Level.letter? letter with
    | some option => reading.takeOption level option none
    | none => .error .unknownArgument) reading

/-- Takes a value of the level. -/
def takeValue (level : Level) (value : String) (reading : Reading) : Except UsageError Reading :=
  match reading.pending with
  | .values values =>
    if level.takesValue (reading.values.length + values.length) then
      .ok { reading with pending := .values (values ++ [value]) }
    else .error .unknownArgument
  | _ =>
    if level.takesValue reading.values.length then do
      return { ← reading.settle level with pending := .values [value] }
    else .error .unknownArgument

/-- Takes an argument that is no option: the value an option waits for, or a value of the level. -/
def takeWord (level : Level) (word : String) (reading : Reading) : Except UsageError Reading :=
  match reading.pending with
  | .catalog none => .ok { reading with pending := .catalog (some word) }
  | _ => reading.takeValue level word

/-- Takes an option by the form of its argument. -/
def takeArgument (level : Level) (argument : String) (reading : Reading) :
    Except UsageError Reading :=
  match Argument.ofString argument with
  | .long name value =>
    match level.option? name with
    | some option => reading.takeOption level option value
    | none => .error .unknownArgument
  | .short letters => reading.takeLetters level letters
  | .escape | .word => reading.takeWord level argument

/-- Takes the arguments of a level without commands, and looks at all of them. -/
def takeAll (level : Level) (reading : Reading) : List String → Except UsageError Reading
  | [] => reading.settle level
  | argument :: arguments =>
    if Argument.ofString argument = .escape then do
      (← arguments.foldlM (fun reading value => reading.takeValue level value) reading).settle level
    else do (← reading.takeArgument level argument).takeAll level arguments

/-- Refuses flags that exclude each other. -/
def checkFlags (reading : Reading) : Except UsageError Unit :=
  if reading.flags.contains .verbose && reading.flags.contains .quiet then
    .error .argumentConflict
  else .ok ()

/-- The catalog that was given, or else the one of the environment. -/
def catalogOr (environment : Option String) (reading : Reading) :
    Except UsageError (Option String) :=
  match reading.catalog, environment with
  | some path, _ => .ok (some path)
  | none, some "" => .error .invalidValue
  | none, path => .ok path

/-- The command that was read, on a level without commands. -/
def command (level : Level) (environment : Option String) (reading : Reading) :
    Except UsageError Command := do
  let catalog ← if level = .check then reading.catalogOr environment else .ok none
  reading.checkFlags
  match level, reading.values with
  | .check, file :: files =>
    .ok (.check
      { files := file :: files
        fix := reading.flags.contains .fix
        noWarnings := reading.flags.contains .noWarnings
        catalog })
  | .parse, [line] => .ok (.parse line)
  | .keywords, [] => .ok .keywords
  | .completions, [shell] => .ok (.completions shell)
  | .configShow, [] => .ok (.config .show)
  | .configInit, [] => .ok (.config .init)
  | .configSet, [key, value] => .ok (.config (.set key value))
  | .configPath, [] => .ok (.config .path)
  | _, _ => .error .missingRequiredArgument

end Reading

/-! ## All levels -/

namespace CommandLine

/-- What comes of asking for help on the command that names lead to. -/
def helpOn (level : Level) : List String → UsageError
  | [] => .helpAsked
  | name :: names =>
    match level.command? name with
    | some inner => helpOn inner names
    | none =>
      if name = "help" && level.hasCommands && names.isEmpty then .helpAsked
      else .invalidSubcommand

/-- Whether a word is a command of a level. -/
def isCommand (level : Level) (word : String) : Bool :=
  (level.command? word).isSome || word = "help"

/-- What comes of a level without a command behind it. -/
def withoutCommand (level : Level) (reading : Reading) :
    Except UsageError (List Flag × Command) :=
  if level = .config then do
    reading.checkFlags
    return (reading.flags, .config .show)
  else if reading.flags.isEmpty then .error .nothingAsked
  else .error .missingSubcommand

/-- Reads the arguments from a level with commands on, and gives the flags of all levels. -/
def readFrom (environment : Option String) (level : Level) (reading : Reading) :
    List String → Except UsageError (List Flag × Command)
  | [] => withoutCommand level reading
  | argument :: arguments =>
    match Argument.ofString argument with
    | .escape =>
      match arguments with
      | [] => withoutCommand level reading
      | word :: _ => .error (if isCommand level word then .unknownArgument else .invalidSubcommand)
    | .word =>
      match level.command? argument with
      | none => .error (if argument = "help" then helpOn level arguments else .invalidSubcommand)
      | some inner => do
        let (flags, command) ←
          if inner.hasCommands then readFrom environment inner {} arguments
          else do
            let reading ← Reading.takeAll inner {} arguments
            pure (reading.flags, ← reading.command inner environment)
        reading.checkFlags
        return (reading.flags ++ flags, command)
    | _ => do readFrom environment level (← reading.takeArgument level argument) arguments

/-- The flags for the output among all flags. -/
def outputFlags (flags : List Flag) : Flags :=
  { verbose := flags.contains .verbose
    quiet := flags.contains .quiet
    json := flags.contains .json
    noColor := flags.contains .noColor }

/-- The invocation that arguments stand for, where the environment may name a catalog. -/
def read (environment : Option String) (arguments : List String) :
    Except UsageError Invocation := do
  let (flags, command) ← readFrom environment .top {} arguments
  return ⟨outputFlags flags, command⟩

end CommandLine

end ItemFilter
