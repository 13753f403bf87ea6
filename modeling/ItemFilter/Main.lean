import ItemFilter.Command.Run
import ItemFilter.CommandLine.Arguments

/-!
# The program

Reads the arguments and the environment, takes the files that a command can touch into a storage,
runs the command, and writes back what changed. What the command does is decided elsewhere.

## Main definitions

* `Program.snapshot`: the files that paths lead to, as a storage
* `Program.apply`: the changes of a storage, made
* `main`: the program
-/

namespace ItemFilter.Program

/-- The names that lead to the working directory, which is given as an absolute path. -/
def placeOf (directory : String) : Place :=
  (Path.ofString directory).steps.filterMap fun
    | .into name => some name
    | .up | .stay => none

/-- The path of a place. -/
def pathOf (place : Place) : String :=
  "/" ++ "/".intercalate place

/-- The entry of a place. What is there and is no file counts as a directory. -/
def entryAt (place : Place) : IO (Option Entry) := do
  try
    return some (.file (← IO.FS.readBinFile (pathOf place)))
  catch
    | .noFileOrDirectory .. => return none
    | _ => return some .directory

/-- A storage with the entry of a place. -/
def look (storage : Storage) (place : Place) : IO Storage := do
  if place = [] || (storage.get? place).isSome then return storage
  match ← entryAt place with
  | some entry => return storage.set place entry
  | none => return storage

/-- A storage with the entries that a path leads through. -/
def lookAlong (storage : Storage) (path : String) : IO Storage := do
  let parts := Path.ofString path
  let (last, _) ← parts.steps.foldlM
    (fun (state : Storage × Place) step => do
      let here := match step with
        | .up => state.2.dropLast
        | .stay => state.2
        | .into name => state.2 ++ [name]
      return (← look state.1 here, here))
    (storage, storage.start parts)
  return last

/-- The files that paths lead to, and the directories on the way, as a storage. -/
def snapshot (storage : Storage) (paths : List String) : IO Storage :=
  paths.foldlM lookAlong storage

/-- Makes the changes between two storages. -/
def apply (before after : Storage) : IO Unit :=
  (before.changes after).forM fun (place, entry) =>
    match entry with
    | .directory => IO.FS.createDir (pathOf place)
    | .file bytes => IO.FS.writeBinFile (pathOf place) bytes

/-- The paths of a command besides that of the configuration file. -/
def pathsOf : Command → List String
  | .check options => options.files ++ options.catalog.toList
  | _ => []

/-- The environment of the program. -/
def environment : IO Environment := do
  return {
    configFile := ← IO.getEnv "FILTERLINT_CONFIG"
    configHome := ← IO.getEnv "XDG_CONFIG_HOME"
    home := ← IO.getEnv "HOME"
    catalog := ← IO.getEnv "FILTERLINT_CATALOG"
    noColor := ← IO.getEnv "NO_COLOR" }

/-- The wording of a failure, as text or as JSON. -/
def failureText (json : Bool) (failure : CommandError) : String :=
  if json then
    (Json.object
      [("error", .object
        [("code", .string failure.code), ("message", .string failure.message)])]).render
  else "Error: " ++ failure.message

/-- Runs an invocation on the files of the system, and gives the exit status. The problems that a
check lists need no further words. -/
def perform (invocation : Invocation) : IO UInt32 := do
  let environment ← environment
  let workingDirectory := placeOf (toString (← IO.currentDir))
  let start : Storage :=
    { entries := (List.range workingDirectory.length).map fun n =>
        (workingDirectory.take (n + 1), .directory)
      workingDirectory }
  let configured ← snapshot start environment.configPath?.toList
  let catalog := match invocation.config environment configured with
    | .ok config => config.catalog.toList
    | .error _ => []
  let before ← snapshot configured (pathsOf invocation.command ++ catalog)
  let outcome := invocation.run environment before
  apply before outcome.storage
  IO.print outcome.output
  if let some failure := outcome.failure then
    let listed := match failure with
      | .errorsFound _ => true
      | _ => false
    unless listed && !invocation.flags.json do
      IO.eprintln (failureText invocation.flags.json failure)
  return outcome.exitStatus.toUInt32

/-- What the program is and how it is used. -/
def usage : String :=
  "filterlint - A linter for item filter files\n\n" ++
  "Usage: filterlint [OPTIONS] <COMMAND>\n\n" ++
  "Commands:\n" ++
  "  check <FILES>...  Lint filter files\n" ++
  "  parse <LINE>      Classify a single line and print the result as JSON\n" ++
  "  keywords          List the recognised filter keywords\n" ++
  "  config            View and edit configuration\n"

/-- Answers arguments that are no invocation, and gives the exit status. -/
def refuse (reason : UsageError) : IO UInt32 := do
  match reason with
  | .helpAsked => IO.print usage
  | .versionAsked => IO.println "filterlint 0.1.0"
  | _ => IO.eprint usage
  return reason.exitStatus.toUInt32

end ItemFilter.Program

/-- Reads the arguments and does what they ask for. -/
def main (arguments : List String) : IO UInt32 := do
  match ItemFilter.CommandLine.read (← IO.getEnv "FILTERLINT_CATALOG") arguments with
  | .ok invocation => ItemFilter.Program.perform invocation
  | .error reason => ItemFilter.Program.refuse reason
