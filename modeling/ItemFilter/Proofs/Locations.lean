import ItemFilter.Proofs.FixedFiles
import ItemFilter.Proofs.JsonFindings

/-!
# Lines and their locations

What is found in a line depends on the line alone. Its location is only put on what was found: the
file on every problem, and the number of the line on every range. So a line of a file is checked as
it is parsed on its own, whatever the other lines are.

## Main definitions

* `LineResult.moveTo`: a classified line, moved to another location
* `Storage.IsLintable`: a file whose lines can be looked at
* `CheckedFile.AgreesAt`: a check and parsing find the same in a line

## Main results

* `Classifier.parse_moveTo`: a line is classified in the same way at all locations
* `Classifier.filter_line_classifyFrom`: the problems of the lines, sorted out by their numbers
* `Invocation.run_check_parse`: a check finds in a line what is found when it is parsed
-/

namespace ItemFilter

open Text
open Cursor (atStart)

/-! ## Other locations -/

section

variable {ρ σ τ : Type} (f : ρ → σ) (g : σ → τ)

theorem Diagnostic.map_map (file file' : Option String) (diagnostic : Diagnostic ρ) :
    (diagnostic.map f file).map g file' = diagnostic.map (g ∘ f) file' := by
  simp only [map, Option.map_map]
  rfl

theorem LineKind.map_map (kind : LineKind ρ) : (kind.map f).map g = kind.map (g ∘ f) := by
  cases kind with
  | block line =>
    simp only [map, BlockLine.map, Option.map_map]
    rfl
  | rule line =>
    simp only [map, RuleLine.map, Option.map_map, List.map_map]
    rfl
  | _ => rfl

theorem LineResult.map_map (file file' : Option String) (result : LineResult ρ) :
    (result.map f file).map g file' = result.map (g ∘ f) file' := by
  simp only [map, LineKind.map_map, List.map_map]
  congr 1
  exact List.map_congr_left fun d _ => d.map_map f g file file'

end

namespace LineResult

/-- The result with the file of a location in every problem, and the number of its line in every
range. -/
def moveTo (location : Location) (result : LineResult Range) : LineResult Range :=
  result.map (fun range => { range with line := location.line }) location.file

/-- A result that is moved might have been put there at once. -/
theorem moveTo_place (result : LineResult Span) (location other : Location) :
    (result.place location).moveTo other = result.place other :=
  result.map_map ..

end LineResult

namespace Classifier

variable (c : Classifier)

/-- A line is classified in the same way at all locations. -/
theorem parse_moveTo (location other : Location) (line : Text) :
    c.parse other line = (c.parse location line).map (LineResult.moveTo other) := by
  unfold parse
  rcases Cursor.ofText line with e | start
  · rfl
  · simp only [Except.map, LineResult.moveTo_place]

/-! ## Lines of a file -/

/-- The ranges of a line have its number. -/
theorem le_line_of_mem_classifyFrom {file : Option String} {n : Nat} {lines : List Text} :
    ∀ d ∈ (c.classifyFrom file n lines).flatMap LineResult.diagnostics, n ≤ d.range.line := by
  induction lines generalizing n with
  | nil => nofun
  | cons line lines ih =>
    rw [classifyFrom, List.flatMap_cons, List.forall_mem_append]
    refine ⟨fun d hd => ?_, fun d hd => Nat.le_of_succ_le (ih d hd)⟩
    obtain ⟨placed, -, rfl⟩ := List.mem_map.mp hd
    exact Nat.le_refl n

/-- The problems with the number of a line are those of that line. -/
theorem filter_line_classifyFrom (file : Option String) (n : Nat) {lines : List Text} {i : Nat}
    {line : Text} (h : lines[i]? = some line) :
    ((c.classifyFrom file n lines).flatMap LineResult.diagnostics).filter
        (fun d => d.range.line == n + i) =
      ((c.classify (atStart line)).place ⟨file, n + i⟩).diagnostics := by
  -- Induction on the lines: the first one has number `n`, and the others have larger ones.
  induction lines generalizing n i with
  | nil => cases h
  | cons first lines ih =>
    rw [classifyFrom, List.flatMap_cons, List.filter_append]
    cases i with
    | zero =>
      obtain rfl := Option.some.inj h
      have hrest : ((c.classifyFrom file (n + 1) lines).flatMap LineResult.diagnostics).filter
          (fun d => d.range.line == n + 0) = [] := by
        refine List.filter_eq_nil_iff.mpr fun d hd => ?_
        have hle := c.le_line_of_mem_classifyFrom d hd
        simp only [Nat.add_zero, beq_iff_eq]
        omega
      rw [hrest, List.append_nil]
      refine List.filter_eq_self.mpr fun d hd => ?_
      obtain ⟨placed, -, rfl⟩ := List.mem_map.mp hd
      exact beq_self_eq_true n
    | succ i =>
      have hfirst : ((c.classify (atStart first)).place ⟨file, n⟩).diagnostics.filter
          (fun d => d.range.line == n + (i + 1)) = [] := by
        refine List.filter_eq_nil_iff.mpr fun d hd => ?_
        obtain ⟨placed, -, rfl⟩ := List.mem_map.mp hd
        simp only [Diagnostic.map, Range.on, beq_iff_eq]
        omega
      have hrest := ih (n + 1) h
      rw [Nat.add_right_comm] at hrest
      rw [hfirst, List.nil_append, ← Nat.add_assoc, hrest]

/-- The same for the lines of a whole file. -/
theorem filter_line_of_getElem? (file : Option String) {lines : List Text} {i : Nat} {line : Text}
    (h : lines[i]? = some line) :
    ((c.classifyFrom file 0 lines).flatMap LineResult.diagnostics).filter
        (fun d => d.range.line == i) =
      ((c.classify (atStart line)).place ⟨file, i⟩).diagnostics := by
  have hfilter := c.filter_line_classifyFrom file 0 h
  rwa [Nat.zero_add] at hfilter

end Classifier

/-- A file that can be read as text, and has no stray carriage return in a line. -/
def Storage.IsLintable (storage : Storage) (path : String) : Prop :=
  ∃ text, storage.readText path = .ok text ∧ ∀ line ∈ Text.lines text.toList, '\r' ∉ line

namespace Classifier

variable (c : Classifier) {storage : Storage}

/-- Without fixes, the results of a file are those of its lines. -/
theorem checkFile_of_unbroken {path text : String} (htext : storage.readText path = .ok text)
    (hlines : ∀ line ∈ Text.lines text.toList, Unbroken line) :
    c.checkFile false path storage =
      .ok (⟨path, c.classifyFrom (some path) 0 (Text.lines text.toList), 0, false⟩, storage) := by
  obtain ⟨edited, hlint, -⟩ := Document.lintFrom_eq c (some path) 0 hlines
  have hlint' : Document.lintFrom c (some path) 0 (Document.parse text.toList).lines =
      (.ok (c.classifyFrom (some path) 0 (Text.lines text.toList)), edited) := hlint
  rw [checkFile, htext]
  simp [checkDocument, Document.lint, hlint', Except.map]

/-- Without fixes, all lintable files are checked. -/
theorem checkFiles_of_lintable {paths : List String}
    (h : ∀ path ∈ paths, storage.IsLintable path) :
    ∃ files, c.checkFiles false paths storage = (.ok files, storage) ∧
      files.map CheckedFile.path = paths ∧
      ∀ file ∈ files, ∃ text, storage.readText file.path = .ok text ∧
        (∀ line ∈ Text.lines text.toList, Unbroken line) ∧
        file.results = c.classifyFrom (some file.path) 0 (Text.lines text.toList) := by
  induction paths with
  | nil => exact ⟨[], rfl, rfl, nofun⟩
  | cons path paths ih =>
    rw [List.forall_mem_cons] at h
    obtain ⟨⟨text, htext, hlines⟩, hrest⟩ := h
    obtain ⟨files, hfiles, hpaths, hresults⟩ := ih hrest
    have hunbroken : ∀ line ∈ Text.lines text.toList, Unbroken line := fun line hline =>
      (unbroken_iff_of_mem_lines hline).mpr (hlines line hline)
    refine ⟨⟨path, c.classifyFrom (some path) 0 (Text.lines text.toList), 0, false⟩ :: files,
      ?_, ?_, List.forall_mem_cons.mpr ⟨⟨text, htext, hunbroken, rfl⟩, hresults⟩⟩
    · rw [checkFiles, c.checkFile_of_unbroken htext hunbroken]
      dsimp only
      rw [hfiles]
      rfl
    · rw [List.map_cons, hpaths]

end Classifier

/-! ## Checking and parsing -/

namespace Invocation

/-- A check in JSON tells what it found. -/
theorem printsJson_checked {flags : Flags} (hjson : flags.json = true) (colors : Bool)
    (files : List CheckedFile) (storage : Storage) :
    (checked flags colors files storage).PrintsJson (·.TellsFiles files) := by
  have houtput : (checked flags colors files storage).output =
      Context.printed (checkJson files) := if_pos hjson
  rw [RunOutcome.PrintsJson, houtput]
  exact ⟨_, Context.read?_printed _, tellsFiles_checkJson files⟩

/-- What comes of parsing a line. -/
theorem run_parse_eq (flags : Flags) {environment : Environment} {storage : Storage}
    {config : Config} (hconfig : Config.load environment storage = .ok config) (line : String) :
    run ⟨flags, .parse line⟩ environment storage =
      match config.classifier storage none false with
      | .error e => { failure := some e, storage }
      | .ok c =>
        match c.parse {} line.toList with
        | .error e => { failure := some (.line e), storage }
        | .ok result => { output := Context.printed result.toJson, storage } := by
  unfold run Invocation.config
  rw [hconfig]
  rfl

end Invocation

/-- A check and parsing find the same in a line of a file: what the classifier finds in it. -/
structure CheckedFile.AgreesAt (file : CheckedFile) (i : Nat) (environment : Environment)
    (storage : Storage) (c : Classifier) (line : Text) (result : LineResult Range) : Prop where
  /-- This is what the classifier finds. -/
  parse_eq : c.parse {} line = .ok result
  /-- Parsing the line prints it. -/
  run_eq (flags : Flags) : Invocation.run ⟨flags, .parse (String.ofList line)⟩ environment storage =
    { output := Context.printed result.toJson, storage }
  /-- In JSON, the problems are listed as they were found. -/
  printsJson (flags : Flags) :
    (Invocation.run ⟨flags, .parse (String.ofList line)⟩ environment storage).PrintsJson
      (·.TellsResult result)
  /-- The check finds the same, with the path and the number of the line. -/
  getElem?_results : file.results[i]? = some (result.moveTo ⟨some file.path, i⟩)
  /-- These problems are reported as those of the line. -/
  filter_eq : file.diagnostics.filter (fun d => d.range.line == i) =
    (result.moveTo ⟨some file.path, i⟩).diagnostics

/-- A file whose results are those of its lines agrees with parsing at each of them. -/
theorem CheckedFile.exists_agreesAt {file : CheckedFile} {environment : Environment}
    {storage : Storage} {config : Config} {c : Classifier} {lines : List Text}
    (hconfig : Config.load environment storage = .ok config)
    (hclassifier : config.classifier storage none false = .ok c)
    (hresults : file.results = c.classifyFrom (some file.path) 0 lines) {i : Nat} {line : Text}
    (hi : lines[i]? = some line) (hline : Unbroken line) :
    ∃ result, file.AgreesAt i environment storage c line result := by
  have hparse := c.parse_of_unbroken {} hline
  have hrun (flags : Flags) :
      Invocation.run ⟨flags, .parse (String.ofList line)⟩ environment storage =
        { output := Context.printed ((c.classify (atStart line)).place {}).toJson, storage } := by
    rw [Invocation.run_parse_eq flags hconfig, hclassifier]
    dsimp only
    rw [String.toList_ofList, hparse]
  refine ⟨(c.classify (atStart line)).place {}, hparse, hrun, fun flags => ?_, ?_, ?_⟩
  · rw [hrun]
    exact ⟨_, Context.read?_printed _, LineResult.tellsResult_toJson _⟩
  · rw [hresults, Document.getElem?_classifyFrom, hi, Nat.zero_add, LineResult.moveTo_place]
    rfl
  · rw [CheckedFile.diagnostics, hresults, LineResult.moveTo_place]
    exact c.filter_line_of_getElem? (some file.path) hi

namespace Invocation

/-- A line is classified in the same way at all locations, but for the location. So, with any
configuration that can be loaded, a check and parsing find the same. If the configured catalog
cannot be loaded, they fail for the same reason. Otherwise they have the same classifier. Every line
of a lintable file can be parsed, and what the check finds in it is what parsing finds and prints,
with the path of the file and the number of the line. These problems are reported as those of the
line, whatever the other lines are, and told in JSON. -/
theorem run_check_parse :
    (∀ (c : Classifier) (location other : Location) (line : Text),
      c.parse other line = (c.parse location line).map (LineResult.moveTo other)) ∧
    ∀ (flags : Flags) (paths : List String) (environment : Environment) (storage : Storage)
      (config : Config), Config.load environment storage = .ok config →
      (∀ path ∈ paths, storage.IsLintable path) →
      (∃ e, config.classifier storage none false = .error e ∧ e.code = "CATALOG_ERROR" ∧
        run ⟨flags, .check { files := paths }⟩ environment storage =
          { failure := some e, storage } ∧
        ∀ flags line, run ⟨flags, .parse line⟩ environment storage =
          { failure := some e, storage }) ∨
      ∃ c colors files, config.classifier storage none false = .ok c ∧
        run ⟨flags, .check { files := paths }⟩ environment storage =
          checked flags colors files storage ∧
        (flags.json = true →
          (run ⟨flags, .check { files := paths }⟩ environment storage).PrintsJson
            (·.TellsFiles files)) ∧
        files.map CheckedFile.path = paths ∧
        ∀ file ∈ files, ∃ text, storage.readText file.path = .ok text ∧
          file.results.length = (Text.lines text.toList).length ∧
          ∀ (i : Nat) (line : Text), (Text.lines text.toList)[i]? = some line →
            ∃ result, file.AgreesAt i environment storage c line result := by
  refine ⟨Classifier.parse_moveTo, fun flags paths environment storage config hconfig hfiles => ?_⟩
  rcases hclassifier : config.classifier storage none false with e | c
  · refine Or.inl ⟨e, rfl, ?_, ?_, fun flags line => ?_⟩
    · exact Context.code_of_classifier ⟨flags, true, environment, config, storage⟩
        { files := paths } hclassifier
    · rw [run, Invocation.config, hconfig]
      dsimp only [Context.run]
      rw [Context.check, hclassifier]
      rfl
    · rw [run_parse_eq flags hconfig, hclassifier]
  · refine Or.inr ?_
    obtain ⟨files, hcheck, hpaths, hresults⟩ := c.checkFiles_of_lintable hfiles
    have hrun : run ⟨flags, .check { files := paths }⟩ environment storage =
        checked flags (!flags.noColor && environment.allowsColor && config.color.getD true) files
          storage := by
      rw [@run_check_eq flags { files := paths } _ _ _ c hconfig hclassifier, hcheck]
    refine ⟨c, _, files, rfl, hrun, fun hjson => ?_, hpaths, fun file hfile => ?_⟩
    · rw [hrun]
      exact printsJson_checked hjson _ files storage
    · obtain ⟨text, htext, hunbroken, hfound⟩ := hresults file hfile
      refine ⟨text, htext, hfound ▸ Document.length_classifyFrom .., fun i line hi => ?_⟩
      exact file.exists_agreesAt hconfig hclassifier hfound hi
        (hunbroken line (List.mem_of_getElem? hi))

/-- A directory with a filter of two lines, the second of which is invalid. -/
def invalidFilter : Storage :=
  { entries := [(["a.filter"], .file "Show\n  ItemLevel x\n".toUTF8)] }

/-- The filter is given twice, and checked with the builtin catalog. -/
theorem run_check_parse_invalid :
    Config.load { configFile := some "config.toml" } invalidFilter = .ok {} ∧
    (∀ path ∈ ["a.filter", "a.filter"], invalidFilter.IsLintable path) ∧
    ∃ c colors files, Config.classifier {} invalidFilter none false = .ok c ∧
      run ⟨{ json := true }, .check { files := ["a.filter", "a.filter"] }⟩
          { configFile := some "config.toml" } invalidFilter =
        checked { json := true } colors files invalidFilter ∧
      (run ⟨{ json := true }, .check { files := ["a.filter", "a.filter"] }⟩
          { configFile := some "config.toml" } invalidFilter).PrintsJson (·.TellsFiles files) ∧
      files.map CheckedFile.path = ["a.filter", "a.filter"] ∧
      ∀ file ∈ files, ∃ text, invalidFilter.readText file.path = .ok text ∧
        file.results.length = (Text.lines text.toList).length ∧
        ∀ (i : Nat) (line : Text), (Text.lines text.toList)[i]? = some line →
          ∃ result, file.AgreesAt i { configFile := some "config.toml" } invalidFilter c line
            result := by
  have hconfig : Config.load { configFile := some "config.toml" } invalidFilter = .ok {} := by
    decide
  have htext : invalidFilter.readText "a.filter" = .ok "Show\n  ItemLevel x\n" := by decide
  have hfiles : ∀ path ∈ ["a.filter", "a.filter"], invalidFilter.IsLintable path := by
    rw [List.forall_mem_cons, List.forall_mem_singleton]
    exact ⟨⟨_, htext, by decide⟩, ⟨_, htext, by decide⟩⟩
  refine ⟨hconfig, hfiles, ?_⟩
  rcases run_check_parse.2 { json := true } _ _ _ {} hconfig hfiles with
    ⟨e, hclassifier, -⟩ | ⟨c, colors, files, hclassifier, hrun, hjson, hrest⟩
  · cases hclassifier
  · exact ⟨c, colors, files, hclassifier, hrun, hjson rfl, hrest⟩

end Invocation

end ItemFilter
