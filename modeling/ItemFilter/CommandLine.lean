import ItemFilter.Cursor

/-!
# Commands and their arguments

What can be asked for on the command line: a command with its arguments, and flags that every
command understands.

## Main definitions

* `Command`: the commands
* `Flags`: how the output is made
* `Invocation`: a command and flags
* `UsageError`: why arguments are no invocation
* `LogLevel`: how much is logged
-/

namespace ItemFilter

/-- What can be done with the configuration. -/
inductive ConfigCommand where
  /-- Shows what is configured. -/
  | show
  /-- Creates the configuration file. -/
  | init
  /-- Changes a setting. -/
  | set (key value : String)
  /-- Shows where the configuration file is. -/
  | path
  deriving DecidableEq, Repr

/-- The arguments of a check. -/
structure CheckOptions where
  /-- The files to check. -/
  files : List String
  /-- Whether fixes are made. -/
  fix : Bool := false
  /-- Whether warnings are left out. -/
  noWarnings : Bool := false
  /-- The file of the catalog, if it is not the configured one. -/
  catalog : Option String := none
  deriving DecidableEq, Repr

/-- The commands. -/
inductive Command where
  /-- Checks files. -/
  | check (options : CheckOptions)
  /-- Classifies a line. -/
  | parse (line : String)
  /-- Lists the keywords. -/
  | keywords
  /-- Works on the configuration. -/
  | config (command : ConfigCommand)
  /-- Gives the completions for a shell. -/
  | completions (shell : String)
  deriving DecidableEq, Repr

/-- How the output of a command is made. -/
structure Flags where
  /-- Whether details are shown. -/
  verbose : Bool := false
  /-- Whether nothing but errors is shown. -/
  quiet : Bool := false
  /-- Whether the output is JSON. -/
  json : Bool := false
  /-- Whether the output is without colours. -/
  noColor : Bool := false
  deriving DecidableEq, Repr

/-- A command and how its output is made. -/
structure Invocation where
  /-- How the output is made. -/
  flags : Flags
  /-- The command. -/
  command : Command
  deriving DecidableEq, Repr

/-- Why arguments are no invocation. The last three ask for a text about the program. -/
inductive UsageError where
  /-- Two arguments exclude each other, or a flag stands twice. -/
  | argumentConflict
  /-- An argument that has to be there is missing. -/
  | missingRequiredArgument
  /-- No command is given. -/
  | missingSubcommand
  /-- An argument is not known, or is one too many. -/
  | unknownArgument
  /-- A command is not known. -/
  | invalidSubcommand
  /-- The value of an argument is missing or not allowed. -/
  | invalidValue
  /-- A flag has a value. -/
  | tooManyValues
  /-- There are no arguments at all. -/
  | nothingAsked
  /-- Help is asked for. -/
  | helpAsked
  /-- The version is asked for. -/
  | versionAsked
  deriving DecidableEq, Repr

/-- The exit status for arguments that are no invocation. -/
def UsageError.exitStatus : UsageError → Nat
  | helpAsked | versionAsked => 0
  | _ => 2

/-- How much is logged. -/
inductive LogLevel where
  | trace
  | debug
  | warn
  | error
  deriving DecidableEq, Repr

/-- The name of a log level. -/
def LogLevel.name : LogLevel → String
  | trace => "TRACE"
  | debug => "DEBUG"
  | warn => "WARN"
  | error => "ERROR"

/-- How much is logged with the given flags. The environment may ask for everything, in any case. -/
def Flags.logLevel (flags : Flags) (wanted : Option String) : LogLevel :=
  if wanted.any fun w => Cursor.sameIgnoringCase w.toList "trace".toList then .trace
  else if flags.verbose then .debug
  else if flags.quiet then .error
  else .warn

end ItemFilter
