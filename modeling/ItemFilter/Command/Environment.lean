import ItemFilter.Storage.Path

/-!
# The environment

What commands are told by the environment they run in, and the place of the configuration file that
follows from it.

## Main definitions

* `Environment`: the variables that matter
* `Environment.configPath?`: the path of the configuration file
* `Environment.allowsColor`: whether the environment has nothing against colours
-/

namespace ItemFilter

/-- The variables that matter. -/
structure Environment where
  /-- The configuration file. -/
  configFile : Option String := none
  /-- The directory for the configurations of all programs. -/
  configHome : Option String := none
  /-- The home directory. -/
  home : Option String := none
  /-- The home directory of the account, used when the variable for it is empty or missing. -/
  accountHome : Option String := none
  /-- The file of the catalog. -/
  catalog : Option String := none
  /-- A wish for output without colours. -/
  noColor : Option String := none
  deriving DecidableEq, Repr

namespace Environment

/-- The home directory. -/
def home? (environment : Environment) : Option String :=
  match environment.home with
  | none | some "" => environment.accountHome
  | some home => some home

/-- The path of the configuration file: the one that is named, or else a file in the directory for
configurations, or else a file in the home directory. -/
def configPath? (environment : Environment) : Option String :=
  match environment.configFile, environment.configHome with
  | some path, _ => some path
  | none, some directory => some (within directory)
  | none, none => environment.home?.map fun home => within (Path.join home ".config")
where
  /-- The configuration file in a directory for configurations. -/
  within (directory : String) : String :=
    Path.join (Path.join directory "filterlint") "config.toml"

/-- Whether the environment has nothing against colours. An empty wish is none. -/
def allowsColor (environment : Environment) : Bool :=
  environment.noColor.all fun wish => wish = ""

end Environment

end ItemFilter
