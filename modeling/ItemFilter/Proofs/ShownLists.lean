import ItemFilter.Proofs.CommaLists
import ItemFilter.Proofs.Whitelisting

/-!
# Lists that are shown and set

Names are set by a list, and shown as one. The list that is shown need not be the one that was
given, which may have had empty parts and other white space in it, but it stands for the same names.
So it can be given back in place of the first one: the configuration stays what it is, and as it is
written as before, nothing is changed at all.

## Main definitions

* `Config.names`: the configured names of a kind
* `NameKind.shown`: the line that shows names
* `Environment.ListsNames`: names that are configured, shown, and can be set by what is shown

## Main results

* `Context.exists_listed`: where the names are in what is shown
* `Context.setConfig_of_same`: setting what is set changes nothing
* `Environment.listNames_roundTrip`: lists of names, read, shown and set again
-/

namespace ItemFilter

open Text

/-! ## Showing names -/

namespace NameKind

/-- What the names of a kind are shown under. -/
def label : NameKind → String
  | .classes => "classes"
  | .bases => "bases"

/-- The line that shows names of a kind. There is none without names. -/
def shown (kind : NameKind) (names : List Text) : String :=
  if names.isEmpty then "" else "  " ++ kind.label ++ ": " ++ shownNames names ++ "\n"

end NameKind

/-- The configured names of a kind. -/
def Config.names (config : Config) : NameKind → List Text
  | .classes => config.classes
  | .bases => config.bases

theorem Config.get_setting (config : Config) (kind : NameKind) :
    config.get kind.setting = .names (config.names kind) := by
  cases kind <;> rfl

theorem linesText_append (colors : Bool) (front back : List (List Piece)) :
    linesText colors (front ++ back) = linesText colors front ++ linesText colors back := by
  rw [linesText, List.map_append, String.join_append]
  rfl

/-- A piece without styles is shown as it is. -/
theorem showPieces_plain (colors : Bool) (text : String) :
    showPieces colors [⟨text, []⟩] = text := by
  cases colors <;> simp [showPieces, Piece.shown, Piece.wrap]

theorem linesText_namesLine (colors : Bool) (kind : NameKind) (names : List Text) :
    linesText colors (Context.namesLine kind.label names) = kind.shown names := by
  unfold Context.namesLine NameKind.shown
  cases names.isEmpty with
  | true => rfl
  | false => simp [linesText, showPieces_plain, shownNames]

theorem linesText_title (colors : Bool) (title : String) :
    linesText colors [[], [⟨title, []⟩]] = "\n" ++ (title ++ "\n") := by
  have hempty : showPieces colors [] = "" := rfl
  simp only [linesText, List.map_cons, List.map_nil, showPieces_plain, hempty, String.join_cons,
    String.join_nil, String.empty_append, String.append_empty]

namespace Context

variable {context : Context} {path key value : String} {config : Config}

/-- The names are shown in a section of their own. -/
theorem exists_listed (colors : Bool) (path : String) (config : Config) :
    ∃ front back, linesText colors (configLines path true config) =
      front ++ "\n[whitelist]\n" ++
        (NameKind.shown .classes (config.names .classes) ++
          NameKind.shown .bases (config.names .bases)) ++ "\n[output]\n" ++ back := by
  refine ⟨linesText colors ([[⟨"Configuration", [.bold, .green]⟩], [], [⟨"File: " ++ path, []⟩],
      [⟨"Exists: " ++ truthWord true, []⟩], []] ++ ([[⟨"[linter]", []⟩]] ++
      settingLine "enable_warnings" truthWord config.enableWarnings ++
      settingLine "catalog" id config.catalog)),
    linesText colors (settingLine "color" truthWord config.color), ?_⟩
  have hclasses := linesText_namesLine colors .classes (config.names .classes)
  have hbases := linesText_namesLine colors .bases (config.names .bases)
  have hwhitelist : "\n" ++ ("[whitelist]" ++ "\n") = "\n[whitelist]\n" := rfl
  have houtput : "\n" ++ ("[output]" ++ "\n") = "\n[output]\n" := rfl
  rw [← hclasses, ← hbases, ← hwhitelist, ← houtput, ← linesText_title colors,
    ← linesText_title colors]
  simp only [configLines, settingLines, if_true, linesText_append, String.append_assoc]
  rfl

/-- Setting what is set already changes nothing, not even the file. -/
theorem setConfig_of_same (hload : Config.loadFrom context.storage path = .ok config)
    (hkey : config.setKey key value = .ok config)
    (hholds : context.storage.Holds path (String.ofList config.toToml)) :
    (context.setConfig path key value).failure = none ∧
      (context.setConfig path key value).storage = context.storage := by
  have hsave : Config.save context.storage path config = (.ok (), context.storage) := by
    rw [Config.save, Config.writeAt, hholds.makeParents_eq]
    dsimp only
    rw [hholds.write_self]
  rw [setConfig, Config.change, hload]
  dsimp only
  rw [hkey]
  dsimp only
  rw [hsave]
  exact ⟨rfl, rfl⟩

end Context

/-! ## Setting what is shown -/

namespace Environment

variable {environment : Environment} {storage : Storage} {path key value : String}
  {config : Config} {kind : NameKind} {flags : Flags} {command : ConfigCommand}

/-- Names of a configuration that are shown as a list, and can be set by it. -/
structure ListsNames (environment : Environment) (storage : Storage) (config : Config)
    (kind : NameKind) : Prop where
  /-- The configuration is found. -/
  load_eq : Config.load environment storage = .ok config
  /-- The names are shown in a section of their own. -/
  shows (flags : Flags) (hjson : flags.json = false) (hquiet : flags.quiet = false) :
    (environment.configure flags .show storage).failure = none ∧
      (environment.configure flags .show storage).storage = storage ∧
      ∃ front back, (environment.configure flags .show storage).output =
        front ++ "\n[whitelist]\n" ++
          (NameKind.shown .classes (config.names .classes) ++
            NameKind.shown .bases (config.names .bases)) ++ "\n[output]\n" ++ back
  /-- Setting the list that is shown succeeds, and changes nothing. -/
  sets (flags : Flags) :
    (environment.configure flags (.set kind.setting.key (shownNames (config.names kind)))
        storage).failure = none ∧
      (environment.configure flags (.set kind.setting.key (shownNames (config.names kind)))
        storage).storage = storage

/-- A command on the configuration that succeeds knows where the configuration is. -/
theorem exists_configPath (h : (environment.configure flags command storage).failure = none) :
    ∃ path, environment.configPath? = some path := by
  cases hpath : environment.configPath? with
  | some path => exact ⟨path, rfl⟩
  | none =>
    have hnone : environment.configPath = .error .noPlace := by rw [configPath, hpath]
    have hload : Config.load environment storage = .error .noPlace := by
      rw [Config.load, hnone]
      rfl
    rw [configure, Invocation.run, Invocation.config, hload] at h
    dsimp only [Context.run] at h
    rw [Context.configure, hnone] at h
    cases h

/-- A setting is what it was if it is made once more. -/
theorem setKey_of_names (h : parseNames value.toList = config.names kind) :
    config.setKey kind.setting.key value = .ok config := by
  refine Config.setKey_eq_ok_iff_get.mpr ⟨kind.setting, .names (config.names kind),
    Setting.ofKey?_eq_some_iff.mpr rfl, ?_, ?_⟩
  · rw [← h]
    cases kind <;> rfl
  · intro other
    split
    · next hother => rw [hother, config.get_setting]
    · rfl

/-- The names of a configuration that is stored as it is written are listed, if they can be. -/
theorem listsNames_of_holds (hpath : environment.configPath? = some path)
    (hholds : storage.Holds path (String.ofList config.toToml))
    (hitems : ∀ name ∈ config.names kind, name.IsItem) :
    environment.ListsNames storage config kind := by
  have hstored : Config.Stored storage path config :=
    .present hholds (by rw [String.toList_ofList, Config.ofToml?_toToml])
  have hhas := Storage.has_of_readText hholds.readText_eq
  refine ⟨?_, ?_, ?_⟩
  · rw [Config.load, configPath, hpath]
    exact hstored.loadFrom_eq
  · intro flags hjson hquiet
    obtain ⟨context, rfl, rfl, hrun⟩ := configure_eq_of_flags hpath flags .show storage
    dsimp only at hrun
    have hshow : context.showConfig path =
        context.prints (linesText context.colors (Context.configLines path true config)) := by
      rw [Context.showConfig, hstored.loadFrom_eq]
      simp [hjson, hquiet, hhas]
    rw [hrun, hshow]
    exact ⟨rfl, rfl, Context.exists_listed context.colors path config⟩
  · intro flags
    obtain ⟨context, rfl, hrun⟩ := configure_eq hpath flags
      (.set kind.setting.key (shownNames (config.names kind))) storage
    dsimp only at hrun
    rw [hrun]
    exact Context.setConfig_of_same hstored.loadFrom_eq
      (setKey_of_names (parseNames_shownNames hitems)) hholds

/-- The names of a list are configured when the list is set. -/
theorem names_of_setKey {new : Config}
    (h : config.setKey kind.setting.key value = .ok new) :
    new.names kind = parseNames value.toList := by
  obtain ⟨setting, content, hkey, hcontent, hget⟩ := Config.setKey_eq_ok_iff_get.mp h
  have hsetting : Setting.ofKey? kind.setting.key = some kind.setting :=
    Setting.ofKey?_eq_some_iff.mpr rfl
  obtain rfl := Option.some.inj (hsetting.symm.trans hkey)
  have hnames : kind.setting.content? value = some (.names (parseNames value.toList)) := by
    cases kind <;> rfl
  obtain rfl := Option.some.inj (hnames.symm.trans hcontent)
  have hnew := hget kind.setting
  rw [if_pos rfl, new.get_setting] at hnew
  exact Content.names.inj hnew

/-- A list that is set is listed from then on. -/
theorem listsNames_configure (htree : storage.IsTree)
    (hset : (environment.configure flags (.set kind.setting.key value) storage).failure = none) :
    ∃ config, config.names kind = parseNames value.toList ∧
      environment.ListsNames
        (environment.configure flags (.set kind.setting.key value) storage).storage config
        kind := by
  obtain ⟨path, hpath⟩ := exists_configPath hset
  obtain ⟨context, rfl, hrun⟩ :=
    configure_eq hpath flags (.set kind.setting.key value) storage
  dsimp only at hrun
  rw [hrun] at hset ⊢
  obtain ⟨config, new, -, hkey, hsave⟩ := context.exists_of_setConfig hset
  have hnames := names_of_setKey hkey
  refine ⟨new, hnames, listsNames_of_holds hpath (Config.Stored.holds_of_save htree hsave) ?_⟩
  rw [hnames]
  exact fun name hname => isItem_of_mem_parseNames hname

/-- A list is read as names that can stand in a list, and such names are read back from the list
that shows them, so that to read and to show a list once is as good as twice. When a list is set,
its names are what is shown from then on, and nothing is changed when what is shown is set. -/
theorem listNames_roundTrip :
    (∀ text : Text, ∀ name ∈ parseNames text, name.IsItem) ∧
    (∀ names : List Text, (∀ name ∈ names, name.IsItem) →
      parseNames (shownNames names).toList = names) ∧
    (∀ text : Text, parseNames (shownNames (parseNames text)).toList = parseNames text) ∧
    ∀ (environment : Environment) (flags : Flags) (kind : NameKind) (value : String)
      (storage : Storage), storage.IsTree →
      (environment.configure flags (.set kind.setting.key value) storage).failure = none →
      ∃ config, config.names kind = parseNames value.toList ∧
        environment.ListsNames
          (environment.configure flags (.set kind.setting.key value) storage).storage
          config kind := by
  refine ⟨?_, ?_, ?_, ?_⟩
  · intro text name hname
    exact isItem_of_mem_parseNames hname
  · intro names hnames
    exact parseNames_shownNames hnames
  · intro text
    apply parseNames_shownNames
    intro name hname
    exact isItem_of_mem_parseNames hname
  · intro environment flags kind value storage htree hset
    exact listsNames_configure htree hset

/-- A list with an empty part and all kinds of white space. -/
def cards : String := " Maps ,, Divination Cards,\u3000Æther Stone,"

/-- The names of the list. -/
def cardNames : List Text := ["Maps".toList, "Divination Cards".toList, "Æther Stone".toList]

theorem failure_cards : (configure { configFile := some "config.toml" } {}
    (.set "whitelist.bases" cards) {}).failure = none := by decide +kernel

/-- The list is tidied when it is shown for the first time. -/
theorem listNames_roundTrip_cards :
    parseNames cards.toList = cardNames ∧ (∀ name ∈ cardNames, name.IsItem) ∧
    parseNames "Maps, Divination Cards, Æther Stone".toList = cardNames ∧
    (∃ config : Config, config.names .bases = cardNames ∧
      ListsNames { configFile := some "config.toml" }
        (configure { configFile := some "config.toml" } {}
          (.set "whitelist.bases" cards) {}).storage config .bases) := by
  obtain ⟨hitems, hback, -, hruns⟩ := listNames_roundTrip
  have hcards : parseNames cards.toList = cardNames := by decide +kernel
  have hnames : ∀ name ∈ cardNames, name.IsItem := by
    rw [← hcards]
    exact hitems cards.toList
  refine ⟨hcards, hnames, hback cardNames hnames, ?_⟩
  rw [← hcards]
  exact hruns { configFile := some "config.toml" } {} .bases cards {} isFree_new.isTree
    failure_cards

end Environment

end ItemFilter
