import ItemFilter.Command.Run
import ItemFilter.Proofs.ConfigText
import ItemFilter.Proofs.Files

/-!
# Working on the configuration

The commands on the configuration keep it in a file. As long as the file is what they wrote, it can
be read and overwritten, so that every command finds the configuration as the last one left it, and
the settings that were made add up. A file that is no configuration is another matter: it can be
neither shown nor changed.

## Main definitions

* `Content`, `Setting.content?`, `Config.get`: what a setting is set to
* `Storage.IsFree`, `Storage.Holds`: a place for a file, and a file that can be overwritten
* `Config.Stored`: a configuration that the commands find
* `ConfigCommand.failure?`: why a command on the configuration fails
* `Environment.configured`, `Environment.made`: what runs leave, and the settings they make
* `Config.breakage?`: why a file is no configuration

## Main results

* `Config.setKey_eq_ok_iff_get`: a setting is changed, and no other
* `Environment.configure_continues`: what a run does with a configuration that is stored
* `Environment.load_configured`: the configuration is made up of the settings that were made
* `Environment.configure_broken`: a file that is no configuration is neither shown nor changed
-/

namespace ItemFilter

/-! ## Settings -/

/-- What a setting can be set to. -/
inductive Content where
  /-- A truth value, or none. -/
  | truth (b : Option Bool)
  /-- A path, or none. -/
  | path (path : Option String)
  /-- Names. -/
  | names (names : List Text)
  deriving DecidableEq, Repr

/-- What a value means to a setting. No path is written as an empty one. -/
def Setting.content? (setting : Setting) (value : String) : Option Content :=
  match setting with
  | .enableWarnings | .color => (parseTruth? value).map fun b => .truth (some b)
  | .catalog => some (.path (if value = "" then none else some value))
  | .classes | .bases => some (.names (parseNames value.toList))

theorem Setting.ofKey?_eq_some_iff {key : String} {setting : Setting} :
    Setting.ofKey? key = some setting ↔ setting.key = key := by
  constructor
  · intro h
    have hkey := List.find?_some h
    simpa using hkey
  · rintro rfl
    cases setting <;> rfl

namespace Config

variable {config new : Config} {storage before after made : Storage} {path text : String}

/-- What a setting of a configuration is. -/
def get (config : Config) : Setting → Content
  | .enableWarnings => .truth config.enableWarnings
  | .catalog => .path config.catalog
  | .classes => .names config.classes
  | .bases => .names config.bases
  | .color => .truth config.color

/-- A configuration is made up of its settings. -/
theorem ext_get {other : Config} (h : ∀ setting, config.get setting = other.get setting) :
    config = other := by
  obtain ⟨warnings, catalog, classes, bases, color⟩ := config
  obtain ⟨warnings', catalog', classes', bases', color'⟩ := other
  obtain rfl := Content.truth.inj (h .enableWarnings)
  obtain rfl := Content.path.inj (h .catalog)
  obtain rfl := Content.names.inj (h .classes)
  obtain rfl := Content.names.inj (h .bases)
  obtain rfl := Content.truth.inj (h .color)
  rfl

/-- A set changes its setting to what the value means, and no other. -/
theorem get_of_set {setting : Setting} {value : String} (h : config.set setting value = some new) :
    ∃ content, setting.content? value = some content ∧
      ∀ other, new.get other = if other = setting then content else config.get other := by
  cases setting with
  | enableWarnings =>
    obtain ⟨b, hb, rfl⟩ := Option.map_eq_some_iff.mp h
    exact ⟨.truth (some b), by simp [Setting.content?, hb], fun other => by cases other <;> rfl⟩
  | catalog =>
    obtain rfl := Option.some.inj h
    exact ⟨_, rfl, fun other => by cases other <;> rfl⟩
  | classes =>
    obtain rfl := Option.some.inj h
    exact ⟨_, rfl, fun other => by cases other <;> rfl⟩
  | bases =>
    obtain rfl := Option.some.inj h
    exact ⟨_, rfl, fun other => by cases other <;> rfl⟩
  | color =>
    obtain ⟨b, hb, rfl⟩ := Option.map_eq_some_iff.mp h
    exact ⟨.truth (some b), by simp [Setting.content?, hb], fun other => by cases other <;> rfl⟩

theorem isSome_set (config : Config) (setting : Setting) (value : String) :
    (config.set setting value).isSome = (setting.content? value).isSome := by
  cases setting <;> simp [Config.set, Setting.content?]

theorem setKey_eq_ok_iff {key value : String} :
    config.setKey key value = .ok new ↔
      ∃ setting, Setting.ofKey? key = some setting ∧ config.set setting value = some new := by
  unfold setKey
  cases Setting.ofKey? key with
  | none => simp
  | some setting =>
    cases hset : config.set setting value with
    | none => simp [hset]
    | some found => simp [hset]

/-- A key with a value changes the setting of the key to what the value means, and no other. -/
theorem setKey_eq_ok_iff_get {key value : String} :
    config.setKey key value = .ok new ↔
      ∃ setting content, Setting.ofKey? key = some setting ∧
        setting.content? value = some content ∧
        ∀ other, new.get other = if other = setting then content else config.get other := by
  rw [setKey_eq_ok_iff]
  constructor
  · rintro ⟨setting, hkey, hset⟩
    obtain ⟨content, hcontent, hget⟩ := get_of_set hset
    exact ⟨setting, content, hkey, hcontent, hget⟩
  · rintro ⟨setting, content, hkey, hcontent, hget⟩
    have hsome : (config.set setting value).isSome := by
      rw [isSome_set, hcontent]
      rfl
    obtain ⟨found, hfound⟩ := Option.isSome_iff_exists.mp hsome
    obtain ⟨content', hcontent', hget'⟩ := get_of_set hfound
    obtain rfl := Option.some.inj (hcontent'.symm.trans hcontent)
    exact ⟨setting, hkey, hfound.trans <| congrArg some <|
      ext_get fun other => (hget' other).trans (hget other).symm⟩

/-- The configuration with settings made one after another. -/
def setKeys (config : Config) (settings : List (String × String)) : Except ConfigError Config :=
  settings.foldlM (fun config (key, value) => config.setKey key value) config

theorem setKeys_append (config : Config) (first rest : List (String × String)) :
    config.setKeys (first ++ rest) = config.setKeys first >>= fun new => new.setKeys rest :=
  List.foldlM_append ..

end Config

/-! ## Places for a file -/

namespace Storage

variable {storage before after made : Storage} {path text : String}

/-- A place where a file can be created. -/
structure IsFree (storage : Storage) (path : String) : Prop where
  /-- Entries are in directories. -/
  isTree : storage.IsTree
  /-- There is nothing yet. -/
  has_eq : storage.has path = false
  /-- Every text can be written, once the directories around it are made. -/
  exists_write (text : String) : ∃ made after,
    storage.makeParents path = (.ok (), made) ∧ made.write path text = .ok after

/-- A file with a text, and with the directories around it. -/
structure Holds (storage : Storage) (path text : String) : Prop where
  /-- The text is read. -/
  readText_eq : storage.readText path = .ok text
  /-- No directory is left to make. -/
  makeParents_eq : storage.makeParents path = (.ok (), storage)

/-- A text that was written is there. -/
theorem holds_of_write (h : before.IsTree) (hmade : before.makeParents path = (.ok (), made))
    (hwrite : made.write path text = .ok after) : after.Holds path text := by
  have htree := h.makeParents path
  rw [hmade] at htree
  obtain ⟨hkeeps, htext⟩ := readText_of_write htree hwrite
  exact ⟨htext, makeParents_of_ok hmade hkeeps⟩

/-- A file can be overwritten. -/
theorem Holds.exists_write (h : storage.Holds path text) (new : String) :
    ∃ after, storage.write path new = .ok after ∧ after.Holds path new := by
  obtain ⟨place, hlocate, hentry⟩ := readText_eq_ok_iff.mp h.readText_eq
  -- Only the content of the entry is another, so paths lead where they led before.
  have hsame := sameEntries_set hentry new.toUTF8
  have hplace : storage.get? place ≠ some .directory := by simp [hentry]
  refine ⟨_, write_of_readText hlocate hentry new, ?_, ?_⟩
  · refine readText_eq_ok_iff.mpr ⟨place, hsame.locate_eq_ok hlocate, ?_⟩
    rw [get?_set _ (ne_nil_of_get? hplace), if_pos rfl]
  · exact makeParents_of_ok h.makeParents_eq hsame.keepsDirectories

/-- A file that is overwritten with its own text stays as it is. -/
theorem Holds.write_self (h : storage.Holds path text) : storage.write path text = .ok storage := by
  obtain ⟨place, hlocate, hentry⟩ := readText_eq_ok_iff.mp h.readText_eq
  have hplace : storage.get? place ≠ some .directory := by simp [hentry]
  rw [write_of_readText hlocate hentry text, set_of_get? (ne_nil_of_get? hplace) hentry]

end Storage

/-! ## A configuration in its place -/

namespace Config

/-- A configuration that is found at a path: one without settings if nothing is there yet, or else
the one in the file. -/
inductive Stored (storage : Storage) (path : String) : Config → Prop where
  /-- No file is there yet. -/
  | absent (h : storage.IsFree path) : Stored storage path {}
  /-- A file with the configuration is there. -/
  | present {text : String} {config : Config} (h : storage.Holds path text)
      (htoml : ofToml? text.toList = some config) : Stored storage path config

namespace Stored

/-- A configuration that is stored is loaded. -/
theorem loadFrom_eq (h : Stored storage path config) : loadFrom storage path = .ok config := by
  cases h with
  | absent h => simp [loadFrom, h.has_eq]
  | present h htoml => simp [loadFrom, Storage.has_of_readText h.readText_eq, h.readText_eq, htoml]

/-- A text can be written where a configuration is stored. -/
theorem exists_writeAt (h : Stored storage path config) (text : String)
    (failure : StorageError → ConfigError) :
    ∃ after, writeAt storage path text failure = (.ok (), after) ∧ after.Holds path text := by
  unfold writeAt
  cases h with
  | absent h =>
    obtain ⟨made, after, hmade, hwrite⟩ := h.exists_write text
    rw [hmade]
    dsimp only
    rw [hwrite]
    exact ⟨after, rfl, Storage.holds_of_write h.isTree hmade hwrite⟩
  | present h =>
    obtain ⟨after, hwrite, hafter⟩ := h.exists_write text
    rw [h.makeParents_eq]
    dsimp only
    rw [hwrite]
    exact ⟨after, rfl, hafter⟩

/-- A configuration that is written is stored. -/
theorem exists_save (h : Stored storage path config) (new : Config) :
    ∃ after, save storage path new = (.ok (), after) ∧ Stored after path new := by
  obtain ⟨after, hwrite, hafter⟩ := h.exists_writeAt (String.ofList new.toToml) .notWritten
  exact ⟨after, hwrite, .present hafter (by rw [String.toList_ofList, ofToml?_toToml])⟩

/-- A new file stands for a configuration without settings, as no file did. -/
theorem exists_create (h : Stored storage path config) (hhas : storage.has path = false) :
    ∃ after, create storage path = (.ok (), after) ∧ Stored after path config := by
  obtain ⟨after, hwrite, hafter⟩ := h.exists_writeAt (String.ofList template) .notCreated
  refine ⟨after, by simpa [create, hhas] using hwrite, ?_⟩
  cases h with
  | absent h => exact .present hafter (by rw [String.toList_ofList, ofToml?_template])
  | present h =>
    rw [Storage.has_of_readText h.readText_eq] at hhas
    cases hhas

/-- A configuration that was written is there, whatever there was before. -/
theorem holds_of_save (h : storage.IsTree) (hsave : save storage path new = (.ok (), after)) :
    after.Holds path (String.ofList new.toToml) := by
  unfold save writeAt at hsave
  rcases hmade : storage.makeParents path with ⟨e | _, made⟩
  · simp [hmade] at hsave
  · rcases hwrite : made.write path (String.ofList new.toToml) with e | written
    · simp [hmade, hwrite] at hsave
    · obtain rfl : written = after := by simpa [hmade, hwrite] using hsave
      exact Storage.holds_of_write h hmade hwrite

/-- So it is stored. -/
theorem of_save (h : storage.IsTree) (hsave : save storage path new = (.ok (), after)) :
    Stored after path new :=
  .present (holds_of_save h hsave) (by rw [String.toList_ofList, ofToml?_toToml])

end Stored

end Config

/-! ## Runs -/

/-- Why a command on a configuration that can be loaded fails, if it does. -/
def ConfigCommand.failure? (path : String) (present : Bool) : ConfigCommand → Option ConfigError
  | .init => if present then some (.alreadyThere path) else none
  | .set key value =>
    match Setting.ofKey? key with
    | none => some (.unknownKey key)
    | some setting => if (setting.content? value).isSome then none else some (.badTruth value)
  | .show | .path => none

/-- A key cannot be set to a value if it is unknown, or if the value means nothing. -/
theorem Config.failure?_set (config : Config) (path key value : String) (present : Bool) :
    ConfigCommand.failure? path present (.set key value) =
      match config.setKey key value with
      | .ok _ => none
      | .error e => some e := by
  dsimp only [ConfigCommand.failure?, Config.setKey]
  cases Setting.ofKey? key with
  | none => rfl
  | some setting =>
    have hsome := config.isSome_set setting value
    dsimp only
    rw [← hsome]
    cases config.set setting value with
    | none => rfl
    | some new => rfl

namespace RunOutcome

variable {outcome : RunOutcome} {command : ConfigCommand} {storage : Storage} {path : String}
  {config new : Config}

/-- The setting that a command makes, if it does not fail. -/
def made (outcome : RunOutcome) : ConfigCommand → List (String × String)
  | .set key value => if outcome.failure = none then [(key, value)] else []
  | _ => []

/-- What a command does with a configuration that is stored. -/
structure Continues (outcome : RunOutcome) (command : ConfigCommand) (storage : Storage)
    (path : String) (config : Config) : Prop where
  /-- It fails if there is a reason, and for this reason. -/
  failure_eq : outcome.failure = (command.failure? path (storage.has path)).map .config
  /-- If it fails, then nothing is changed. -/
  storage_eq : outcome.failure ≠ none → outcome.storage = storage
  /-- The configuration that is stored then has the setting made. -/
  exists_stored : ∃ new, config.setKeys (outcome.made command) = .ok new ∧
    Config.Stored outcome.storage path new

/-- A command that fails leaves everything as it is. -/
theorem Continues.of_failure (h : Config.Stored storage path config) {e : ConfigError}
    (hreason : command.failure? path (storage.has path) = some e)
    (hfailure : outcome.failure = some (.config e)) (hstorage : outcome.storage = storage) :
    outcome.Continues command storage path config where
  failure_eq := by rw [hfailure, hreason]; rfl
  storage_eq := fun _ => hstorage
  exists_stored := by
    have hmade : outcome.made command = [] := by
      unfold made
      split
      · rw [hfailure]
        rfl
      · rfl
    exact ⟨config, by rw [hmade]; rfl, hstorage ▸ h⟩

/-- A command that does not fail leaves the configuration with its setting made. -/
theorem Continues.of_success (hreason : command.failure? path (storage.has path) = none)
    (hfailure : outcome.failure = none) (hnew : config.setKeys (outcome.made command) = .ok new)
    (h : Config.Stored outcome.storage path new) :
    outcome.Continues command storage path config where
  failure_eq := by rw [hfailure, hreason]; rfl
  storage_eq := absurd hfailure
  exists_stored := ⟨new, hnew, h⟩

end RunOutcome

namespace Context

variable {context : Context} {path key value : String} {config : Config}

theorem showConfig_continues (h : Config.Stored context.storage path config) :
    (context.showConfig path).Continues .show context.storage path config := by
  rw [showConfig, h.loadFrom_eq]
  exact .of_success rfl rfl rfl h

theorem showPath_continues (h : Config.Stored context.storage path config) :
    (context.showPath path).Continues .path context.storage path config :=
  .of_success rfl rfl rfl h

/-- A file is created unless it is there. -/
theorem initConfig_continues (h : Config.Stored context.storage path config) :
    (context.initConfig path).Continues .init context.storage path config := by
  unfold initConfig
  cases hhas : context.storage.has path with
  | true =>
    have hcreate : Config.create context.storage path =
        (.error (.alreadyThere path), context.storage) := by simp [Config.create, hhas]
    rw [hcreate]
    refine .of_failure h ?_ rfl rfl
    rw [hhas]
    rfl
  | false =>
    obtain ⟨after, hcreate, hafter⟩ := h.exists_create hhas
    rw [hcreate]
    refine .of_success ?_ rfl rfl hafter
    rw [hhas]
    rfl

/-- A setting is made unless there is none with the key, or the value means nothing. -/
theorem setConfig_continues (h : Config.Stored context.storage path config) :
    (context.setConfig path key value).Continues (.set key value) context.storage path config := by
  have hreason := config.failure?_set path key value (context.storage.has path)
  -- The key and the value are looked at before anything is written.
  unfold setConfig Config.change
  rw [h.loadFrom_eq]
  dsimp only
  cases hset : config.setKey key value with
  | error e =>
    rw [hset] at hreason
    exact .of_failure h hreason rfl rfl
  | ok new =>
    rw [hset] at hreason
    obtain ⟨after, hsave, hafter⟩ := h.exists_save new
    dsimp only
    rw [hsave]
    refine .of_success hreason rfl ?_ hafter
    simp [RunOutcome.made, reports, Config.setKeys, hset]

/-- A set that succeeds has loaded the configuration, changed and written it. -/
theorem exists_of_setConfig (h : (context.setConfig path key value).failure = none) :
    ∃ config new, Config.loadFrom context.storage path = .ok config ∧
      config.setKey key value = .ok new ∧
      Config.save context.storage path new =
        (.ok (), (context.setConfig path key value).storage) := by
  unfold setConfig Config.change at h ⊢
  rcases hload : Config.loadFrom context.storage path with e | config
  · rw [hload] at h
    cases h
  · rcases hset : config.setKey key value with e | new
    · simp only [hload, hset] at h
      cases h
    · rcases hsave : Config.save context.storage path new with ⟨e | _, after⟩
      · simp only [hload, hset, hsave] at h
        cases h
      · refine ⟨config, new, rfl, hset, hsave.trans ?_⟩
        simp only [hset, hsave]
        rfl

end Context

namespace Environment

variable {environment : Environment} {storage : Storage} {path : String} {config : Config}

/-- What comes of a run of a command on the configuration. -/
def configure (environment : Environment) (flags : Flags) (command : ConfigCommand)
    (storage : Storage) : RunOutcome :=
  Invocation.run ⟨flags, .config command⟩ environment storage

/-- What runs one after another leave. -/
def configured (environment : Environment) :
    List (Flags × ConfigCommand) → Storage → Storage
  | [], storage => storage
  | (flags, command) :: runs, storage =>
    environment.configured runs (environment.configure flags command storage).storage

/-- The settings that runs one after another make. -/
def made (environment : Environment) :
    List (Flags × ConfigCommand) → Storage → List (String × String)
  | [], _ => []
  | (flags, command) :: runs, storage =>
    let outcome := environment.configure flags command storage
    outcome.made command ++ environment.made runs outcome.storage

/-- No configuration stands in the way of a command that works on it, whatever the flags are. -/
theorem configure_eq_of_flags (hpath : environment.configPath? = some path) (flags : Flags)
    (command : ConfigCommand) (storage : Storage) :
    ∃ context : Context, context.storage = storage ∧ context.flags = flags ∧
      environment.configure flags command storage =
        match command with
        | .show => context.showConfig path
        | .init => context.initConfig path
        | .set key value => context.setConfig path key value
        | .path => context.showPath path := by
  have hconfig : ∃ config, Invocation.config ⟨flags, .config command⟩ environment storage =
      .ok config := by
    unfold Invocation.config
    cases Config.load environment storage with
    | error e => exact ⟨_, rfl⟩
    | ok config => exact ⟨_, rfl⟩
  obtain ⟨config, hconfig⟩ := hconfig
  refine ⟨⟨flags, !flags.noColor && environment.allowsColor && config.color.getD true, environment,
    config, storage⟩, rfl, rfl, ?_⟩
  rw [configure, Invocation.run, hconfig]
  dsimp only [Context.run]
  cases command <;> simp only [Context.configure, configPath, hpath]

theorem configure_eq (hpath : environment.configPath? = some path) (flags : Flags)
    (command : ConfigCommand) (storage : Storage) :
    ∃ context : Context, context.storage = storage ∧
      environment.configure flags command storage =
        match command with
        | .show => context.showConfig path
        | .init => context.initConfig path
        | .set key value => context.setConfig path key value
        | .path => context.showPath path := by
  obtain ⟨context, hstorage, -, hrun⟩ := configure_eq_of_flags hpath flags command storage
  exact ⟨context, hstorage, hrun⟩

/-- Every run goes on from the configuration that is stored. -/
theorem configure_continues (hpath : environment.configPath? = some path)
    (h : Config.Stored storage path config) (flags : Flags) (command : ConfigCommand) :
    (environment.configure flags command storage).Continues command storage path config := by
  obtain ⟨context, rfl, hrun⟩ := configure_eq hpath flags command storage
  rw [hrun]
  match command with
  | .show => exact context.showConfig_continues h
  | .init => exact context.initConfig_continues h
  | .set key value => exact context.setConfig_continues h
  | .path => exact context.showPath_continues h

/-- After a set that succeeds, the configuration that is loaded is the one before with the setting
made. -/
theorem load_configure_set {flags : Flags} {key value : String} (htree : storage.IsTree)
    (hload : Config.load environment storage = .ok config)
    (hset : (environment.configure flags (.set key value) storage).failure = none) :
    ∃ new, config.setKey key value = .ok new ∧
      Config.load environment (environment.configure flags (.set key value) storage).storage =
        .ok new := by
  cases hpath : environment.configPath? with
  | none =>
    rw [Config.load, configPath, hpath] at hload
    cases hload
  | some path =>
    have hloadFrom (storage : Storage) : Config.load environment storage =
        Config.loadFrom storage path := by
      rw [Config.load, configPath, hpath]
      rfl
    obtain ⟨context, rfl, hrun⟩ := configure_eq hpath flags (.set key value) storage
    dsimp only at hrun
    rw [hrun] at hset ⊢
    obtain ⟨found, new, hfound, hkey, hsave⟩ := context.exists_of_setConfig hset
    rw [hloadFrom, hfound] at hload
    obtain rfl := Except.ok.inj hload
    refine ⟨new, hkey, ?_⟩
    rw [hloadFrom]
    exact (Config.Stored.of_save htree hsave).loadFrom_eq

/-- A configuration stays stored, with the settings made. -/
theorem exists_stored_configured (hpath : environment.configPath? = some path)
    (h : Config.Stored storage path config) (runs : List (Flags × ConfigCommand)) :
    ∃ new, config.setKeys (environment.made runs storage) = .ok new ∧
      Config.Stored (environment.configured runs storage) path new := by
  -- Induction on the runs. What each of them keeps is that some configuration is stored.
  induction runs generalizing storage config with
  | nil => exact ⟨config, rfl, h⟩
  | cons first runs ih =>
    obtain ⟨flags, command⟩ := first
    obtain ⟨middle, hmiddle, hstored⟩ := (configure_continues hpath h flags command).exists_stored
    obtain ⟨new, hnew, hlast⟩ := ih hstored
    refine ⟨new, ?_, hlast⟩
    rw [made, Config.setKeys_append, hmiddle]
    exact hnew

/-- The configuration after runs from a place with no file is the one without settings, with the
settings made that the runs made. Every one of them changed what it sets, and nothing else. A run
after them fails for the reason there is, and a run that fails changes nothing. -/
theorem load_configured (environment : Environment) (storage : Storage) {path : String}
    (hpath : environment.configPath? = some path) (hfree : storage.IsFree path)
    (runs : List (Flags × ConfigCommand)) :
    (∃ config, Config.load environment (environment.configured runs storage) = .ok config ∧
      Config.setKeys {} (environment.made runs storage) = .ok config) ∧
    (∀ (config new : Config) (key value : String), config.setKey key value = .ok new ↔
      ∃ setting content, Setting.ofKey? key = some setting ∧
        setting.content? value = some content ∧
        ∀ other, new.get other = if other = setting then content else config.get other) ∧
    ∀ flags command,
      (environment.configure flags command (environment.configured runs storage)).failure =
        (command.failure? path ((environment.configured runs storage).has path)).map .config ∧
      ((environment.configure flags command (environment.configured runs storage)).failure ≠ none →
        (environment.configure flags command (environment.configured runs storage)).storage =
          environment.configured runs storage) := by
  obtain ⟨config, hconfig, hstored⟩ := exists_stored_configured hpath (.absent hfree) runs
  have hload : Config.load environment (environment.configured runs storage) = .ok config := by
    rw [Config.load, configPath, hpath]
    exact hstored.loadFrom_eq
  refine ⟨⟨config, hload, hconfig⟩, fun _ _ _ _ => Config.setKey_eq_ok_iff_get, ?_⟩
  intro flags command
  have hnext := configure_continues hpath hstored flags command
  exact ⟨hnext.failure_eq, hnext.storage_eq⟩

/-- A place for a configuration, in a directory that is not there. -/
theorem isFree_new : Storage.IsFree {} "new/config.toml" where
  isTree := ⟨fun {place} hplace => by
    cases place with
    | nil => rfl
    | cons name place => exact absurd rfl hplace, rfl⟩
  has_eq := by decide
  exists_write text := ⟨_, _, rfl, rfl⟩

/-- Runs that make settings, and runs that fail. -/
def mixedRuns : List (Flags × ConfigCommand) :=
  [({}, .show), ({}, .set "whitelist.classes" "Maps, Gems"), ({}, .init),
    ({}, .set "output.color" "maybe"), ({ json := true }, .set "linter.catalog" "")]

/-- The directory is made by the first set. -/
theorem load_configured_mixed :
    Storage.IsFree {} "new/config.toml" ∧
    (∃ config,
      Config.load { configFile := some "new/config.toml" }
          (configured { configFile := some "new/config.toml" } mixedRuns {}) = .ok config ∧
      Config.setKeys {} (made { configFile := some "new/config.toml" } mixedRuns {}) =
        .ok config) ∧
    (configure { configFile := some "new/config.toml" } {} (.set "output.color" "maybe")
        (configured { configFile := some "new/config.toml" } mixedRuns {})).failure =
      some (.config (.badTruth "maybe")) := by
  have hruns := load_configured { configFile := some "new/config.toml" } {} rfl isFree_new mixedRuns
  exact ⟨isFree_new, hruns.1, (hruns.2.2 {} (.set "output.color" "maybe")).1⟩

end Environment

/-! ## Files that are no configuration -/

namespace Config

/-- Why the bytes of a file are no configuration, if they are none. -/
def breakage? (bytes : ByteArray) : Option ConfigError :=
  match String.fromUTF8? bytes with
  | none => some (.unreadable .notText)
  | some text => if (ofToml? text.toList).isSome then none else some .malformed

variable {storage : Storage} {path : String} {place : Place} {bytes : ByteArray} {e : ConfigError}

theorem loadFrom_of_breakage (hlocate : storage.locate path = .ok place)
    (hfile : storage.get? place = some (.file bytes)) (hbroken : breakage? bytes = some e) :
    loadFrom storage path = .error e := by
  have hhas : storage.has path = true := by simp [Storage.has, hlocate, hfile]
  unfold breakage? at hbroken
  rw [loadFrom, if_pos hhas, Storage.readText, Storage.read, hlocate]
  dsimp only
  rw [hfile]
  dsimp only
  split at hbroken
  · next hnone =>
    obtain rfl := Option.some.inj hbroken
    rw [hnone]
  · next text htext =>
    rw [htext]
    dsimp only
    split at hbroken
    · cases hbroken
    · next hnone =>
      obtain rfl := Option.some.inj hbroken
      rw [Option.not_isSome_iff_eq_none] at hnone
      rw [hnone]

end Config

namespace Environment

variable {environment : Environment} {storage : Storage} {path : String} {place : Place}
  {bytes : ByteArray} {e : ConfigError}

/-- What is needed of the configuration to show it fails a command. -/
theorem configure_show_of_error (hpath : environment.configPath? = some path)
    (hload : Config.loadFrom storage path = .error e) (flags : Flags) :
    environment.configure flags .show storage = { failure := some (.config e), storage } := by
  obtain ⟨context, rfl, hrun⟩ := configure_eq hpath flags .show storage
  rw [hrun, Context.showConfig, hload]
  rfl

/-- The place of a file that is no configuration is told, but the file can be neither shown, changed
nor created anew: all of this fails, and nothing is changed. -/
theorem configure_broken (hpath : environment.configPath? = some path)
    (hlocate : storage.locate path = .ok place)
    (hfile : storage.get? place = some (.file bytes)) (hbroken : Config.breakage? bytes = some e)
    (flags : Flags) :
    ((environment.configure flags .path storage).failure = none ∧
      (environment.configure flags .path storage).storage = storage) ∧
    environment.configure flags .show storage = { failure := some (.config e), storage } ∧
    environment.configure flags .init storage =
      { failure := some (.config (.alreadyThere path)), storage } ∧
    ∀ key value, environment.configure flags (.set key value) storage =
      { failure := some (.config e), storage } := by
  have hload := Config.loadFrom_of_breakage hlocate hfile hbroken
  refine ⟨?_, configure_show_of_error hpath hload flags, ?_, ?_⟩
  · obtain ⟨context, rfl, hrun⟩ := configure_eq hpath flags .path storage
    rw [hrun]
    exact ⟨rfl, rfl⟩
  · obtain ⟨context, rfl, hrun⟩ := configure_eq hpath flags .init storage
    have hhas : context.storage.has path = true := by simp [Storage.has, hlocate, hfile]
    rw [hrun]
    dsimp only
    rw [Context.initConfig, Config.create, if_pos hhas]
    rfl
  · intro key value
    obtain ⟨context, rfl, hrun⟩ := configure_eq hpath flags (.set key value) storage
    rw [hrun]
    dsimp only
    rw [Context.setConfig, Config.change, hload]
    rfl

/-- A directory with a file that is no configuration. -/
def brokenConfiguration : Storage :=
  { entries := [(["config.toml"], .file "x = \n".toUTF8)] }

theorem locate_brokenConfiguration :
    brokenConfiguration.locate "config.toml" = .ok ["config.toml"] := rfl

theorem breakage?_brokenConfiguration :
    Config.breakage? "x = \n".toUTF8 = some .malformed := by decide +kernel

/-- The key has no value. -/
theorem configure_broken_value :
    Config.breakage? "x = \n".toUTF8 = some .malformed ∧
    (configure { configFile := some "config.toml" } {} .path brokenConfiguration).failure = none ∧
    configure { configFile := some "config.toml" } {} .show brokenConfiguration =
      { failure := some (.config .malformed), storage := brokenConfiguration } ∧
    configure { configFile := some "config.toml" } {} (.set "output.color" "on")
        brokenConfiguration =
      { failure := some (.config .malformed), storage := brokenConfiguration } := by
  have hpath : configPath? { configFile := some "config.toml" } = some "config.toml" := rfl
  have hbroken := configure_broken hpath locate_brokenConfiguration rfl
    breakage?_brokenConfiguration {}
  exact ⟨breakage?_brokenConfiguration, hbroken.1.1, hbroken.2.1, hbroken.2.2.2 _ _⟩

/-- A file that is no configuration prevents its inspection and its replacement. -/
theorem exists_unreplaceable :
    ¬ ∀ (environment : Environment) (storage : Storage) (path : String) (place : Place)
        (bytes : ByteArray) (e : ConfigError) (flags : Flags),
      environment.configPath? = some path →
      storage.locate path = .ok place →
      storage.get? place = some (.file bytes) →
      Config.breakage? bytes = some e →
      (environment.configure flags .show storage).failure = none ∧
      (environment.configure flags .path storage).failure = none ∧
      ∀ (setting : Setting) (value : String) (content : Content),
        setting.content? value = some content →
        (environment.configure flags (.set setting.key value) storage).failure = none ∧
        ∃ config, Config.load environment
            (environment.configure flags (.set setting.key value) storage).storage = .ok config ∧
          ∀ other, config.get other = if other = setting then content else Config.get {} other := by
  intro h
  have hshow := (h { configFile := some "config.toml" } brokenConfiguration "config.toml"
    ["config.toml"] _ .malformed {} rfl locate_brokenConfiguration rfl
    breakage?_brokenConfiguration).1
  have hload := Config.loadFrom_of_breakage locate_brokenConfiguration rfl
    breakage?_brokenConfiguration
  rw [configure_show_of_error rfl hload] at hshow
  cases hshow

end Environment

end ItemFilter
