import ItemFilter.Proofs.ExitStatus
import ItemFilter.Proofs.LargerCatalogs

/-!
# Checks without warnings

A classifier can be told to leave warnings out. It finds everything else all the same: a line is
read as before, with the same errors and the same edits, so that a document is linted to the same
lines. Only a block is warned about, and a block has no errors. So a fix that comes with a warning
does not change which lines are invalid, and a check ends with the same status, whether fixes are
made or not.

## Main definitions

* `LineResult.withoutWarnings`: a classified line with its errors only
* `Classifier.silent`: the classifier that leaves warnings out

## Main results

* `Classifier.classify_silent`: a line, classified without warnings
* `Document.lint_silent`: a document, linted without warnings
* `Classifier.leavesError_silent_iff`: the lines that have errors when they are mended
* `Invocation.run_noWarnings`: what leaving warnings out changes, from a line to a check
-/

namespace ItemFilter

open Text
open Cursor (atStart)

/-! ## Results without warnings -/

/-- A problem that is no warning is an error. -/
theorem Diagnostic.not_isWarning {ρ : Type} (diagnostic : Diagnostic ρ) :
    (!diagnostic.isWarning) = diagnostic.isError := by
  unfold isWarning isError
  cases diagnostic.severity <;> rfl

namespace LineResult

variable {ρ : Type} (result : LineResult ρ)

/-- The result with its errors only. -/
def withoutWarnings (result : LineResult ρ) : LineResult ρ :=
  { result with diagnostics := result.diagnostics.filter fun d => !d.isWarning }

theorem withoutWarnings_eq :
    result.withoutWarnings = { result with diagnostics := result.errors } :=
  congrArg (fun diagnostics => { result with diagnostics })
    (List.filter_congr fun d _ => d.not_isWarning)

theorem withoutWarnings_eq_self {result : LineResult ρ}
    (h : ∀ d ∈ result.diagnostics, d.isError = true) : result.withoutWarnings = result := by
  rw [withoutWarnings_eq, errors, List.filter_eq_self.mpr h]

@[simp] theorem errors_withoutWarnings : result.withoutWarnings.errors = result.errors := by
  rw [withoutWarnings_eq, errors, errors, List.filter_filter]
  simp only [Bool.and_self]

@[simp] theorem invalid_withoutWarnings : result.withoutWarnings.invalid = result.invalid := by
  rw [withoutWarnings_eq, invalid, errors, List.any_filter, invalid]
  simp only [Bool.and_self]

theorem withoutWarnings_place (result : LineResult Span) (location : Location) :
    (result.place location).withoutWarnings = result.withoutWarnings.place location := by
  rw [withoutWarnings, diagnostics_place, List.filter_map]
  rfl

end LineResult

/-! ## Lines -/

namespace Classifier

variable (c : Classifier)

/-- The classifier that leaves warnings out. -/
def silent (c : Classifier) : Classifier :=
  { c with warnings := false }

/-- A block has warnings only, and none if they are left out. -/
theorem blockLine_silent (keyword : Token Keyword) (cursor : Cursor) :
    c.silent.blockLine keyword cursor = { c.blockLine keyword cursor with diagnostics := [] } ∧
      (c.blockLine keyword cursor).errors = [] := by
  unfold blockLine Rule.block silent LineResult.errors
  rcases cursor.comment with ⟨_ | comment, next⟩
  · dsimp only
    cases hempty : next.isEmpty with
    | true => exact ⟨rfl, rfl⟩
    | false =>
      cases c.warnings with
      | false => exact ⟨rfl, rfl⟩
      | true => exact ⟨rfl, rfl⟩
  · exact ⟨rfl, rfl⟩

/-- A line has errors only, and is classified in the same way without warnings, or it has no errors,
and all of its problems are left out. -/
theorem classify_silent_cases (start : Cursor) :
    (c.silent.classify start = c.classify start ∧
        ∀ d ∈ (c.classify start).diagnostics, d.isError = true) ∨
      (c.silent.classify start = { c.classify start with diagnostics := [] } ∧
        (c.classify start).errors = []) := by
  unfold classify
  by_cases hcomment : start.isCommented = true
  · rw [if_pos hcomment, if_pos hcomment]
    exact Or.inl ⟨rfl, nofun⟩
  rw [if_neg hcomment, if_neg hcomment]
  by_cases hempty : start.isEmpty = true
  · rw [if_pos hempty, if_pos hempty]
    exact Or.inl ⟨rfl, nofun⟩
  rw [if_neg hempty, if_neg hempty]
  rcases start.word with ⟨_ | word, cursor⟩
  · exact Or.inl ⟨rfl, List.forall_mem_singleton.mpr rfl⟩
  · dsimp only
    cases Keyword.ofName? word.value with
    | none => exact Or.inl ⟨rfl, List.forall_mem_singleton.mpr rfl⟩
    | some keyword =>
      dsimp only
      cases keyword.kind with
      | block => exact Or.inr (c.blockLine_silent ⟨keyword, word.range⟩ cursor)
      | rule category arguments =>
        exact Or.inl ⟨rfl, Rule.isError_of_mem_read keyword cursor c.catalog arguments⟩

/-- Without warnings, a line has its errors only, and is the same otherwise. -/
theorem classify_silent (start : Cursor) :
    c.silent.classify start = (c.classify start).withoutWarnings := by
  rcases c.classify_silent_cases start with ⟨heq, herrors⟩ | ⟨heq, hnone⟩
  · rw [heq, LineResult.withoutWarnings_eq_self herrors]
  · rw [heq, LineResult.withoutWarnings_eq, hnone]

/-- The same, at a line of a file. -/
theorem parse_silent (location : Location) (line : Text) :
    c.silent.parse location line = (c.parse location line).map LineResult.withoutWarnings := by
  unfold parse
  rcases Cursor.ofText line with e | start
  · rfl
  · simp only [Except.map, classify_silent, LineResult.withoutWarnings_place]

end Classifier

/-! ## Documents and files -/

namespace Document

/-- Without warnings, lines are linted to the same lines. -/
theorem lintFrom_silent (c : Classifier) (file : Option String) (n : Nat) (lines : List Text) :
    lintFrom c.silent file n lines =
      ((lintFrom c file n lines).1.map (List.map LineResult.withoutWarnings),
        (lintFrom c file n lines).2) := by
  induction lines generalizing n with
  | nil => rfl
  | cons line lines ih =>
    rw [lintFrom, lintFrom, c.parse_silent]
    rcases c.parse ⟨file, n⟩ line with e | result
    · rfl
    · -- The edits are the same.
      dsimp only [Except.map, LineResult.withoutWarnings]
      rcases editLine line result.edits with ⟨e | ⟨⟩, edited⟩
      · rfl
      · dsimp only
        rw [ih (n + 1)]
        rcases (lintFrom c file (n + 1) lines).1 with e | results
        · rfl
        · rfl

/-- Without warnings, a document is linted to the same document. -/
theorem lint_silent (c : Classifier) (file : Option String) (document : Document) :
    document.lint c.silent file =
      ((document.lint c file).1.map (List.map LineResult.withoutWarnings),
        (document.lint c file).2) := by
  rw [lint, lintFrom_silent, lint]

end Document

/-- A checked file without its warnings. -/
def CheckedFile.withoutWarnings (file : CheckedFile) : CheckedFile :=
  { file with results := file.results.map LineResult.withoutWarnings }

/-- There are as many errors without warnings. -/
theorem hasErrors_withoutWarnings (files : List CheckedFile) :
    (totalReport (files.map CheckedFile.withoutWarnings)).hasErrors =
      (totalReport files).hasErrors := by
  rw [Bool.eq_iff_iff, hasErrors_totalReport_iff, hasErrors_totalReport_iff]
  simp [CheckedFile.withoutWarnings]

namespace Classifier

variable (c : Classifier)

/-- Without fixes, a file is checked as if warnings were left out afterwards. -/
theorem checkFile_silent (path : String) (storage : Storage) :
    c.silent.checkFile false path storage =
      (c.checkFile false path storage).map fun checked =>
        (checked.1.withoutWarnings, checked.2) := by
  unfold checkFile
  rcases storage.readText path with e | text
  · rfl
  · simp only [checkDocument, Bool.false_eq_true, false_and, if_false, Document.lint_silent]
    rcases (Document.parse text.toList).lint c (some path) with ⟨e | results, linted⟩
    · rfl
    · rfl

/-- Without fixes, files are checked as if warnings were left out afterwards. -/
theorem checkFiles_silent (paths : List String) (storage : Storage) :
    c.silent.checkFiles false paths storage =
      ((c.checkFiles false paths storage).1.map (List.map CheckedFile.withoutWarnings),
        (c.checkFiles false paths storage).2) := by
  induction paths generalizing storage with
  | nil => rfl
  | cons path paths ih =>
    rw [checkFiles, checkFiles, checkFile_silent]
    rcases c.checkFile false path storage with e | ⟨file, last⟩
    · rfl
    · dsimp only [Except.map]
      rw [ih]
      rcases (c.checkFiles false paths last).1 with e | files
      · rfl
      · rfl

/-! ## Errors that are left -/

/-- A line leaves an error with warnings or without them. Where the fixes differ, a line has
warnings, so there are no errors to begin with. -/
theorem leavesError_silent_iff {line : Text} (hline : Unbroken line) :
    c.silent.LeavesError line ↔ c.LeavesError line := by
  obtain ⟨new, hnew, hle⟩ := c.exists_mended hline
  obtain ⟨quiet, hquiet, hquietle⟩ := c.silent.exists_mended hline
  rw [hquiet.leavesError_iff, hnew.leavesError_iff, classify_silent,
    LineResult.invalid_withoutWarnings]
  rcases c.classify_silent_cases (atStart line) with ⟨heq, -⟩ | ⟨heq, hnone⟩
  · -- The line is edited and fixed in the same way.
    have hedits := hquiet.editLine_eq 0
    rw [heq, hnew.editLine_eq 0] at hedits
    rw [show new = quiet from congrArg Prod.snd hedits]
  · -- There are no errors to begin with, and mending the line adds none.
    rw [classify_silent, classify_silent, LineResult.errors_withoutWarnings,
      LineResult.errors_withoutWarnings] at hquietle
    have hvalid : ∀ other, (c.classify (atStart other)).errors.length ≤
        (c.classify (atStart line)).errors.length →
        (c.classify (atStart other)).invalid = false := by
      intro other hother
      rw [hnone] at hother
      exact LineResult.invalid_eq_false_iff.mpr (Nat.le_zero.mp hother)
    rw [hvalid new hle, hvalid quiet hquietle]

/-- A check ends with the same status with warnings or without them. -/
theorem status_silent (fix : Bool) (paths : List String) (storage : Storage) :
    status (c.silent.checkFiles fix paths storage).1 =
      status (c.checkFiles fix paths storage).1 := by
  cases fix with
  | false =>
    rw [checkFiles_silent]
    rcases (c.checkFiles false paths storage).1 with e | files
    · rfl
    · exact congrArg (fun b : Bool => if b then 1 else 0) (hasErrors_withoutWarnings files)
  | true =>
    rw [status_checkFiles, status_checkFiles]
    cases hrefused : paths.findSome? storage.refusal? with
    | some status => rfl
    | none =>
      -- No file is refused, so that every line can be mended.
      have hleaves : c.silent.LeavesErrors storage paths ↔ c.LeavesErrors storage paths := by
        refine exists_congr fun path => and_congr_right fun hpath => exists_congr fun text =>
          and_congr_right fun htext => exists_congr fun line => and_congr_right fun hline => ?_
        have hnone := List.findSome?_eq_none_iff.mp hrefused path hpath
        refine c.leavesError_silent_iff ((unbroken_iff_of_mem_lines hline).mpr fun hstray => ?_)
        rw [Storage.refusal?, htext] at hnone
        dsimp only at hnone
        rw [if_pos ⟨line, hline, hstray⟩] at hnone
        cases hnone
      rw [hleaves]

end Classifier

/-! ## Checks -/

/-- The flag leaves warnings out. -/
theorem Config.classifier_noWarnings (config : Config) (storage : Storage)
    (path : Option String) : config.classifier storage path true =
      (config.classifier storage path false).map Classifier.silent := by
  unfold classifier
  rcases config.loadCatalog storage path with e | catalog
  · rfl
  · rfl

/-- Leaving warnings out only hides them. A line is classified with the same kind, errors and edits,
or fails to be scanned in the same way. A document is linted to the same document, or fails in the
same way, with the same results but for the warnings. A check ends with the same exit status, with
fixes or without, even where a fix is only made because of a warning. -/
theorem Invocation.run_noWarnings :
    (∀ (catalog : Catalog) (location : Location) (line : Text),
      (∃ e, Classifier.parse ⟨catalog, true⟩ location line = .error e ∧
        Classifier.parse ⟨catalog, false⟩ location line = .error e) ∨
      ∃ result quiet, Classifier.parse ⟨catalog, true⟩ location line = .ok result ∧
        Classifier.parse ⟨catalog, false⟩ location line = .ok quiet ∧
        quiet.diagnostics = result.diagnostics.filter (fun d => !d.isWarning) ∧
        quiet.kind = result.kind ∧ quiet.errors = result.errors ∧
        quiet.invalid = result.invalid ∧ quiet.edits = result.edits) ∧
    (∀ (catalog : Catalog) (file : Option String) (document : Document),
      document.lint ⟨catalog, false⟩ file =
        ((document.lint ⟨catalog, true⟩ file).1.map (List.map LineResult.withoutWarnings),
          (document.lint ⟨catalog, true⟩ file).2)) ∧
    ∀ (flags : Flags) (options : CheckOptions) (environment : Environment) (storage : Storage),
      (run ⟨flags, .check { options with noWarnings := true }⟩ environment storage).exitStatus =
        (run ⟨flags, .check { options with noWarnings := false }⟩ environment
          storage).exitStatus := by
  refine ⟨fun catalog location line => ?_, fun catalog => Document.lint_silent ⟨catalog, true⟩,
    fun flags options environment storage => ?_⟩
  · have hsilent := Classifier.parse_silent ⟨catalog, true⟩ location line
    rcases hparse : Classifier.parse ⟨catalog, true⟩ location line with e | result
    · rw [hparse] at hsilent
      exact Or.inl ⟨e, rfl, hsilent⟩
    · rw [hparse] at hsilent
      exact Or.inr ⟨result, result.withoutWarnings, rfl, hsilent, rfl, rfl,
        result.errors_withoutWarnings, result.invalid_withoutWarnings, rfl⟩
  · rw [exitStatus_run_check, exitStatus_run_check]
    rcases Config.load environment storage with e | config
    · rfl
    · dsimp only
      rw [config.classifier_noWarnings]
      rcases config.classifier storage options.catalog false with e | c
      · rfl
      · exact c.status_silent options.fix options.files storage

end ItemFilter
