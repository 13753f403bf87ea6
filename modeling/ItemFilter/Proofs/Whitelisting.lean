import ItemFilter.Proofs.Acceptance
import ItemFilter.Proofs.CommaLists
import ItemFilter.Proofs.Configuring
import ItemFilter.Proofs.FixedFiles

/-!
# Names on the whitelist

A name that is put on the whitelist is known from then on, whatever else the catalog knows. Names
are only ever added to a catalog, and there are words of the grammar that need further names but
none that need fewer, so a line that is valid without the whitelist is valid with it.

## Main definitions

* `Catalog.Within`: a catalog whose names are known to another
* `Text.IsPlainName`: a name that can be put on the whitelist as it is
* `NameKind.line`: the line of a rule with a name

## Main results

* `ArgumentRule.grammar_mono`: a larger catalog allows more words
* `Classifier.classify_valid_mono`: a line that is valid is valid with a larger catalog
* `Classifier.classify_line`: there is nothing to report about a name that is known
* `Environment.whitelisted`: what comes of names that are put on the whitelist
-/

namespace ItemFilter

open Text Classifier
open Cursor (atStart atBoundary extent)

/-! ## Sets of names -/

namespace NameSet

variable {set other : NameSet} {name value : Text} {names : List Text}

theorem occursIn_self (text : Text) : occursIn text text = true := by
  cases text with
  | nil => rfl
  | cons c text => simp [occursIn]

/-- The names that are there already stay there. -/
theorem mem_insert {entry : NameEntry} (h : entry ∈ set.entries) (name : Text) :
    entry ∈ (set.insert name).entries := by
  unfold insert
  dsimp only
  split
  · exact h
  · exact List.mem_append_left _ h

theorem mem_extend {entry : NameEntry} (h : entry ∈ set.entries) (names : List Text) :
    entry ∈ (set.extend names).entries := by
  -- Induction on the names, the set growing with each.
  induction names generalizing set with
  | nil => exact h
  | cons name names ih => exact ih (mem_insert h name)

theorem covers_mono (h : ∀ entry ∈ set.entries, entry ∈ other.entries)
    (hvalue : set.covers value = true) : other.covers value = true := by
  obtain ⟨entry, hentry, hoccurs⟩ := List.any_eq_true.mp hvalue
  exact List.any_eq_true.mpr ⟨entry, h entry hentry, hoccurs⟩

/-- A name that is added is covered, even if it was there in another case. -/
theorem covers_insert_self (set : NameSet) (name : Text) :
    (set.insert name).covers name = true := by
  unfold insert
  dsimp only
  split
  · next hthere =>
    obtain ⟨entry, hentry, hfolded⟩ := List.any_eq_true.mp hthere
    refine List.any_eq_true.mpr ⟨entry, hentry, ?_⟩
    rw [beq_iff_eq.mp hfolded]
    exact occursIn_self _
  · refine List.any_eq_true.mpr ⟨_, List.mem_append_right _ (List.mem_singleton_self _), ?_⟩
    exact occursIn_self _

theorem covers_extend (set : NameSet) (h : name ∈ names) :
    (set.extend names).covers name = true := by
  induction names generalizing set with
  | nil => cases h
  | cons first names ih =>
    rcases List.mem_cons.mp h with rfl | h
    · exact covers_mono (fun _ hentry => mem_extend hentry names) (set.covers_insert_self name)
    · exact ih (set.insert first) h

end NameSet

/-! ## Catalogs -/

namespace Catalog

/-- A catalog whose names are known to another. -/
def Within (catalog other : Catalog) : Prop :=
  ∀ kind value, (catalog.names kind).covers value = true → (other.names kind).covers value = true

/-- A catalog is within every catalog that it is extended to. -/
theorem within_whitelist (catalog : Catalog) (classes bases : List Text) :
    catalog.Within (catalog.whitelist classes bases) := by
  intro kind value
  cases kind with
  | classes => exact NameSet.covers_mono fun _ hentry => NameSet.mem_extend hentry classes
  | bases => exact NameSet.covers_mono fun _ hentry => NameSet.mem_extend hentry bases

end Catalog

open Grammar in
/-- A larger catalog allows more words. -/
theorem ArgumentRule.grammar_mono {catalog other : Catalog} (h : catalog.Within other)
    (rule : ArgumentRule) {text : Text} (htext : text ∈ rule.grammar catalog) :
    text ∈ rule.grammar other := by
  cases rule with
  | catalogList names =>
    have hword : word (fun w => w ≠ [] ∧ (catalog.names names).covers w = true) ≤
        word fun w => w ≠ [] ∧ (other.names names).covers w = true := by
      rintro text ⟨value, hspelled, hne, hcovers⟩
      exact ⟨value, hspelled, hne, h names value hcovers⟩
    have hmore := kstar_mono (mul_le_mul' (le_refl gap) hword)
    exact mul_le_mul' (le_refl _) (mul_le_mul' hword hmore) htext
  | range bounds operator => cases operator <;> exact htext
  | _ => exact htext

/-! ## Lines -/

namespace Rule

/-- All problems of a rule are errors, so there are none if it is valid. -/
theorem diagnostics_of_valid {catalog : Catalog} {keyword : Keyword} {rule : ArgumentRule}
    {cursor : Cursor} (h : (read catalog keyword rule cursor).1.invalid = false) :
    (read catalog keyword rule cursor).1.diagnostics = [] ∧
      (read catalog keyword rule cursor).1.edits =
        (arguments catalog keyword rule cursor).1.edits := by
  obtain ⟨hvalid, hempty⟩ := (read_invalid_eq_false_iff keyword cursor catalog rule).mp h
  have hplain := isPlain_arguments keyword cursor catalog rule
  rw [hplain.invalid_eq, Bool.not_eq_eq_eq_not, Bool.not_false, List.isEmpty_iff] at hvalid
  rw [read_eq, hempty, Bool.or_true, if_pos rfl]
  exact ⟨hvalid, rfl⟩

end Rule

namespace Classifier

variable {c other : Classifier} {line : Text}

/-- The catalog does not matter to a line that does not start with a keyword. -/
theorem classify_eq_or (c other : Classifier) (line : Text) :
    (∃ (gap : Text) (keyword : Keyword) (rest : Text), allBlank gap = true ∧
      atBoundary rest = true ∧ line = gap ++ keyword.name.toList ++ rest) ∨
    other.classify (atStart line) = c.classify (atStart line) := by
  rcases hword : (atStart line).word with ⟨_ | word, cursor⟩
  · exact Or.inr (by simp only [classify, hword])
  · cases hname : Keyword.ofName? word.value with
    | none => exact Or.inr (by simp only [classify, hword, hname])
    | some keyword =>
      obtain ⟨gap, rest, hkeyword⟩ := exists_of_ofName? hword hname
      exact Or.inl ⟨gap, keyword, rest, hkeyword⟩

/-- A line that is valid is valid with a larger catalog. -/
theorem classify_valid_mono (hcatalog : c.catalog.Within other.catalog)
    (hwarnings : other.warnings = c.warnings) (h : (c.classify (atStart line)).invalid = false) :
    (other.classify (atStart line)).invalid = false := by
  -- Only what follows the keyword of a rule is looked up in the catalog.
  rcases classify_eq_or c other line with ⟨gap, keyword, rest, hgap, hb, hline⟩ | heq
  · cases hkind : keyword.kind with
    | block =>
      rw [c.classify_block hkind hline hgap hb, blockLine, ← hwarnings] at h
      rw [other.classify_block hkind hline hgap hb, blockLine]
      exact h
    | rule category rule =>
      rw [c.classify_rule hkind hline hgap hb, ruleLine_eq] at h
      rw [other.classify_rule hkind hline hgap hb, ruleLine_eq]
      have hbounded := ArgumentRule.isBounded_of_kind hkind
      refine (Rule.read_valid_iff_mem other.catalog keyword hbounded _ hb).mpr ?_
      have hmem := (Rule.read_valid_iff_mem c.catalog keyword hbounded _ hb).mp h
      obtain ⟨front, hfront, last, hlast, hrest⟩ := Language.mem_mul.mp hmem
      obtain ⟨gap, hgap, arguments, harguments, rfl⟩ := Language.mem_mul.mp hfront
      rw [← hrest]
      exact Language.append_mem_mul
        (Language.append_mem_mul hgap (rule.grammar_mono hcatalog harguments)) hlast
  · rw [heq]
    exact h

theorem parse_valid_mono (hcatalog : c.catalog.Within other.catalog)
    (hwarnings : other.warnings = c.warnings) {location : Location} {result : LineResult Range}
    (hparse : c.parse location line = .ok result) (h : result.invalid = false) :
    ∃ result', other.parse location line = .ok result' ∧ result'.invalid = false := by
  have hline := unbroken_of_parse hparse
  rw [c.parse_of_unbroken location hline] at hparse
  obtain rfl := Except.ok.inj hparse
  rw [LineResult.invalid_place] at h
  refine ⟨_, other.parse_of_unbroken location hline, ?_⟩
  rw [LineResult.invalid_place]
  exact classify_valid_mono hcatalog hwarnings h

end Classifier

/-! ## Names of rules -/

namespace NameKind

/-- The setting of the names of a kind. -/
def setting : NameKind → Setting
  | .classes => .classes
  | .bases => .bases

/-- The keyword of the rule with the names of a kind. -/
def keyword : NameKind → Keyword
  | .classes => .itemClass
  | .bases => .baseType

theorem kind_keyword (kind : NameKind) :
    kind.keyword.kind = .rule .condition (.catalogList kind) := by
  cases kind <;> rfl

/-- The line of the rule with a name in quotes. -/
def line (kind : NameKind) (name : Text) : Text :=
  kind.keyword.name.toList ++ ' ' :: '"' :: (name ++ ['"'])

end NameKind

/-- A name that can be put on the whitelist, and in quotes, as it is. -/
structure Text.IsPlainName (name : Text) : Prop where
  /-- There is a character. -/
  ne_nil : name ≠ []
  /-- There is no white space at the ends. -/
  trim_eq : trim name = name
  /-- There is no comma. -/
  comma : ',' ∉ name
  /-- There is no quote. -/
  quote : '"' ∉ name
  /-- There is no line break. -/
  unbroken : Unbroken name

namespace Text.IsPlainName

variable {name : Text} (h : name.IsPlainName)
include h

theorem parseNames_eq : parseNames name = [name] := by
  rw [parseNames, pieces_eq_splitOn, List.splitOn_eq_singleton h.comma]
  simp [h.trim_eq, h.ne_nil]

theorem content?_eq (kind : NameKind) :
    kind.setting.content? (String.ofList name) = some (.names [name]) := by
  have hparse := h.parseNames_eq
  cases kind with
  | classes => rw [NameKind.setting, Setting.content?, String.toList_ofList, hparse]
  | bases => rw [NameKind.setting, Setting.content?, String.toList_ofList, hparse]

theorem unbroken_line (kind : NameKind) : Unbroken (kind.line name) := by
  have hkeyword : Unbroken kind.keyword.name.toList := by
    cases kind with
    | classes => exact unbroken_iff.mpr (by decide)
    | bases => exact unbroken_iff.mpr (by decide)
  have hopening : Unbroken [' ', '"'] := unbroken_iff.mpr (by decide)
  have hclosing : Unbroken ['"'] := unbroken_iff.mpr (by decide)
  exact unbroken_append.mpr
    ⟨hkeyword, unbroken_append.mpr ⟨hopening, unbroken_append.mpr ⟨h.unbroken, hclosing⟩⟩⟩

open Grammar in
/-- A name in quotes belongs to the grammar of its rule if it is known. -/
theorem mem_grammar {catalog : Catalog} {kind : NameKind}
    (hcovers : (catalog.names kind).covers name = true) :
    ' ' :: '"' :: (name ++ ['"']) ∈
      gap * (ArgumentRule.catalogList kind).grammar catalog * blank := by
  have hgap : [' '] ∈ gap := ⟨by decide, by decide⟩
  have hword : '"' :: (name ++ ['"']) ∈
      word fun w => w ≠ [] ∧ (catalog.names kind).covers w = true :=
    ⟨name, ⟨Or.inl ⟨h.quote, rfl⟩, by simp⟩, h.ne_nil, hcovers⟩
  -- There is no operator, no other name, and nothing behind the name.
  have hnames := Language.append_mem_mul hword
    (Language.nil_mem_kstar (gap * word fun w => w ≠ [] ∧ (catalog.names kind).covers w = true))
  have hnone : [] ∈ optional (equality * gap) := mem_optional.mpr (Or.inl rfl)
  have hrule := Language.append_mem_mul hnone hnames
  have hblank : [] ∈ blank := allBlank_nil
  have hline := Language.append_mem_mul (Language.append_mem_mul hgap hrule) hblank
  simpa only [ArgumentRule.grammar, List.cons_append, List.nil_append, List.append_nil] using hline

/-- There is nothing to report about a name that is known, and nothing to edit. -/
theorem classify_line {c : Classifier} {kind : NameKind}
    (hcovers : (c.catalog.names kind).covers name = true) :
    (c.classify (atStart (kind.line name))).diagnostics = [] ∧
      (c.classify (atStart (kind.line name))).edits = [] := by
  -- A line is valid if it belongs to the grammar, and then the list of names edits nothing.
  have hb : atBoundary (' ' :: '"' :: (name ++ ['"'])) = true := rfl
  have hline : kind.line name =
    [] ++ kind.keyword.name.toList ++ ' ' :: '"' :: (name ++ ['"']) := rfl
  rw [c.classify_rule kind.kind_keyword hline allBlank_nil hb, ruleLine_eq]
  have hvalid := (Rule.read_valid_iff_mem c.catalog kind.keyword
    (ArgumentRule.isBounded_of_kind kind.kind_keyword)
    ⟨[] ++ kind.keyword.name.toList, _, extent (kind.line name)⟩ hb).mpr (h.mem_grammar hcovers)
  obtain ⟨hdiagnostics, hedits⟩ := Rule.diagnostics_of_valid hvalid
  refine ⟨hdiagnostics, hedits.trans ?_⟩
  exact (Rule.isPlain_arguments kind.keyword _ c.catalog (.catalogList kind)).unedited rfl

end Text.IsPlainName

/-! ## Configurations -/

namespace Config

variable {config : Config} {storage : Storage} {c : Classifier} {kind : NameKind} {name : Text}

/-- The configuration without names. -/
def withoutNames (config : Config) : Config :=
  { config with classes := [], bases := [] }

theorem extend_withoutNames (config : Config) (catalog : Catalog) :
    config.extend catalog =
      (config.withoutNames.extend catalog).whitelist config.classes config.bases := rfl

/-- A catalog that is loaded is loaded without the names of the configuration, too. -/
theorem exists_classifier_withoutNames {catalog : Option String} {noWarnings : Bool}
    (h : config.classifier storage catalog noWarnings = .ok c) :
    ∃ plain, config.withoutNames.classifier storage catalog noWarnings = .ok plain ∧
      c.warnings = plain.warnings ∧
      c.catalog = plain.catalog.whitelist config.classes config.bases := by
  -- The names have no part in finding the catalog, only in extending it.
  unfold classifier loadCatalog at h ⊢
  dsimp only [withoutNames]
  cases hpath : catalog.or config.catalog with
  | none =>
    rw [hpath] at h
    have hc : Classifier.mk (config.extend .builtin) _ = c := Except.ok.inj h
    rw [← hc]
    exact ⟨_, rfl, rfl, config.extend_withoutNames .builtin⟩
  | some path =>
    rw [hpath] at h
    dsimp only at h ⊢
    rcases hload : Catalog.load storage path with e | found
    · rw [hload] at h
      cases h
    · rw [hload] at h
      have hc : Classifier.mk (config.extend found) _ = c := Except.ok.inj h
      rw [← hc]
      exact ⟨_, rfl, rfl, config.extend_withoutNames found⟩

/-- A configured name is known. -/
theorem covers_of_get {catalog : Option String} {noWarnings : Bool}
    (h : config.classifier storage catalog noWarnings = .ok c)
    (hget : config.get kind.setting = .names [name]) :
    (c.catalog.names kind).covers name = true := by
  obtain ⟨plain, -, -, hcatalog⟩ := exists_classifier_withoutNames h
  rw [hcatalog]
  cases kind with
  | classes =>
    have hnames : config.classes = [name] := Content.names.inj hget
    exact NameSet.covers_extend _ (by rw [hnames]; exact List.mem_singleton_self name)
  | bases =>
    have hnames : config.bases = [name] := Content.names.inj hget
    exact NameSet.covers_extend _ (by rw [hnames]; exact List.mem_singleton_self name)

end Config

/-! ## Runs with a name on the whitelist -/

namespace Environment

variable {environment : Environment} {storage later : Storage} {config used : Config}
  {kind : NameKind} {name : Text}

/-- There is nothing to report about a line: neither when it is parsed, nor when it is a line of a
file that is checked. -/
structure Accepts (environment : Environment) (storage : Storage) (config : Config)
    (line : Text) : Prop where
  /-- A run that parses the line prints a result without problems. -/
  parse (flags : Flags) {c : Classifier} (h : config.classifier storage none false = .ok c) :
    ∃ result : LineResult Range, result.diagnostics = [] ∧
      Invocation.run ⟨flags, .parse (String.ofList line)⟩ environment storage =
        { output := Context.printed result.toJson, storage }
  /-- A run that checks files prints no problem of the line. -/
  check (flags : Flags) (options : CheckOptions) {c : Classifier} {files : List CheckedFile}
    {after : Storage}
    (h : config.classifier storage options.catalog options.noWarnings = .ok c)
    (hfiles : c.checkFiles options.fix options.files storage = (.ok files, after)) :
    (∃ colors, Invocation.run ⟨flags, .check options⟩ environment storage =
      Invocation.checked flags colors files after) ∧
    ∀ file ∈ files, ∀ text, storage.readText file.path = .ok text →
      ∀ i : Nat, (Text.lines text.toList)[i]? = some line →
        ∃ result, file.results[i]? = some result ∧ result.diagnostics = []

/-- A line with a configured name is accepted. -/
theorem accepts_line (hload : Config.load environment storage = .ok config)
    (hname : name.IsPlainName) (hget : config.get kind.setting = .names [name]) :
    environment.Accepts storage config (kind.line name) where
  parse flags c h := by
    obtain ⟨hdiagnostics, -⟩ := hname.classify_line (Config.covers_of_get h hget)
    refine ⟨(c.classify (atStart (kind.line name))).place {}, ?_, ?_⟩
    · rw [LineResult.diagnostics_place, hdiagnostics]
      rfl
    · unfold Invocation.run Invocation.config
      rw [hload]
      dsimp only [Context.run]
      rw [Context.parse, h, String.toList_ofList]
      dsimp only
      rw [c.parse_of_unbroken {} (hname.unbroken_line kind)]
      rfl
  check flags options c files after h hfiles := by
    obtain ⟨hdiagnostics, hedits⟩ := hname.classify_line (Config.covers_of_get h hget)
    have hkeeps : ¬ c.NeedsMending (kind.line name) := by
      simp [NeedsMending, LineResult.fixes, hdiagnostics, hedits]
    constructor
    · rw [Invocation.run_check_eq flags hload h, hfiles]
      exact ⟨_, rfl⟩
    · intro file hfile text htext i hi
      obtain ⟨result, hresult, hsame⟩ :=
        exists_result_of_checkFiles hfiles file hfile text htext i _ hi hkeeps
      refine ⟨result, hresult, ?_⟩
      rw [hsame, LineResult.diagnostics_place, hdiagnostics]
      rfl

/-- A name that is put on the whitelist is the only one of its kind there, and no other setting is
changed. As long as it is configured, whatever else is, the line of its rule is accepted with every
catalog that can be loaded; and with every such catalog, a line without errors is still without
errors when the configured names are added. -/
theorem whitelisted (flags : Flags) (kind : NameKind) (htree : storage.IsTree)
    (hload : Config.load environment storage = .ok config) (hname : name.IsPlainName)
    (hset : (environment.configure flags (.set kind.setting.key (String.ofList name))
      storage).failure = none) :
    (∃ new, Config.load environment (environment.configure flags
          (.set kind.setting.key (String.ofList name)) storage).storage = .ok new ∧
        ∀ other, new.get other =
          if other = kind.setting then .names [name] else config.get other) ∧
    ∀ later used, Config.load environment later = .ok used →
      used.get kind.setting = .names [name] →
      environment.Accepts later used (kind.line name) ∧
      ∀ catalog noWarnings c, used.classifier later catalog noWarnings = .ok c →
        ∃ plain, used.withoutNames.classifier later catalog noWarnings = .ok plain ∧
          ∀ location line result, plain.parse location line = .ok result →
            result.invalid = false →
            ∃ result', c.parse location line = .ok result' ∧ result'.invalid = false := by
  constructor
  · obtain ⟨new, hkey, hnew⟩ := load_configure_set htree hload hset
    refine ⟨new, hnew, ?_⟩
    obtain ⟨setting, content, hsetting, hcontent, hget⟩ := Config.setKey_eq_ok_iff_get.mp hkey
    have hkind := Setting.ofKey?_eq_some_iff.mpr (rfl : kind.setting.key = _)
    obtain rfl := Option.some.inj (hsetting.symm.trans hkind)
    obtain rfl := Option.some.inj (hcontent.symm.trans (hname.content?_eq kind))
    exact hget
  · intro later used hused hget
    refine ⟨accepts_line hused hname hget, ?_⟩
    intro catalog noWarnings c hclassifier
    obtain ⟨plain, hplain, hwarnings, hcatalog⟩ :=
      Config.exists_classifier_withoutNames hclassifier
    -- The catalog with the names is an extension of the one without them.
    have hwithin : plain.catalog.Within c.catalog := by
      rw [hcatalog]
      exact plain.catalog.within_whitelist used.classes used.bases
    exact ⟨plain, hplain, fun _ _ _ hparse => parse_valid_mono hwithin hwarnings hparse⟩

/-- A name that is put on the whitelist where there is no configuration yet. -/
def stone : Text := "Æther Stone #1".toList

theorem isPlainName_stone : stone.IsPlainName where
  ne_nil := by decide
  trim_eq := by decide
  comma := by decide
  quote := by decide
  unbroken := unbroken_iff.mpr (by decide)

theorem failure_stone : (configure { configFile := some "config.toml" } {}
    (.set "whitelist.classes" (String.ofList stone)) {}).failure = none := by decide +kernel

/-- The name is known to the configuration that is written. -/
theorem whitelisted_stone :
    stone.IsPlainName ∧
    ∃ new, Config.load { configFile := some "config.toml" }
        (configure { configFile := some "config.toml" } {}
          (.set "whitelist.classes" (String.ofList stone)) {}).storage = .ok new ∧
      Accepts { configFile := some "config.toml" }
        (configure { configFile := some "config.toml" } {}
          (.set "whitelist.classes" (String.ofList stone)) {}).storage new
        ("Class \"Æther Stone #1\"".toList) := by
  have hload : Config.load { configFile := some "config.toml" } {} = .ok {} := by decide
  obtain ⟨⟨new, hnew, hget⟩, hlater⟩ := whitelisted {} .classes isFree_new.isTree hload
    isPlainName_stone failure_stone
  exact ⟨isPlainName_stone, new, hnew, (hlater _ new hnew (hget .classes)).1⟩

end Environment

end ItemFilter
