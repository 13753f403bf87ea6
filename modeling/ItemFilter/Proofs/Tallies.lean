import ItemFilter.Command.Check

/-!
# Counts as tallies

The counts of a file are added up line by line, and those of a check file by file. Either way each
of them is the number of certain things among all that was found: of lines, of errors, of warnings,
and of lines with an error.

## Main definitions

* `Report.tally`: everything counted in one go

## Main results

* `CheckedFile.report_eq_tally`: the counts of a file
* `totalReport_eq_tally`: the counts of all files together
* `hasErrors_totalReport_iff`: when there are errors in the files
-/

namespace ItemFilter

namespace Report

/-- What there is among the results of lines. -/
def tally (results : List (LineResult Range)) : Report where
  lines := results.length
  errors := (results.flatMap LineResult.diagnostics).countP Diagnostic.isError
  warnings := (results.flatMap LineResult.diagnostics).countP Diagnostic.isWarning
  invalidLines := results.countP LineResult.invalid

theorem add_eq (a b : Report) :
    a + b = ⟨a.lines + b.lines, a.errors + b.errors, a.warnings + b.warnings,
      a.invalidLines + b.invalidLines⟩ := rfl

theorem add_assoc (a b c : Report) : a + b + c = a + (b + c) := by
  simp only [add_eq, Nat.add_assoc]

theorem zero_add (a : Report) : {} + a = a := by
  simp only [add_eq, Nat.zero_add]

theorem add_zero (a : Report) : a + {} = a := rfl

theorem tally_append (front back : List (LineResult Range)) :
    tally (front ++ back) = tally front + tally back := by
  simp only [tally, add_eq, List.length_append, List.flatMap_append, List.countP_append]

theorem tally_singleton (result : LineResult Range) : tally [result] = ofResult result := by
  simp only [tally, ofResult, LineResult.errors, LineResult.warnings, List.length_singleton,
    List.flatMap_singleton, List.countP_singleton, ← List.countP_eq_length_filter]

/-- Adding up the counts of lists of results, whatever was counted before. -/
theorem foldl_add_tally {α : Type} (results : α → List (LineResult Range)) (xs : List α)
    (start : Report) :
    xs.foldl (fun report x => report + tally (results x)) start =
      start + tally (xs.flatMap results) := by
  induction xs generalizing start with
  | nil => exact (add_zero start).symm
  | cons x xs ih => rw [List.foldl_cons, ih, List.flatMap_cons, tally_append, add_assoc]

theorem ofResults_eq_tally (results : List (LineResult Range)) :
    ofResults results = tally results := by
  have hfold := foldl_add_tally (fun result => [result]) results {}
  simp only [tally_singleton, zero_add, List.flatMap_singleton'] at hfold
  exact hfold

end Report

/-- The counts of a file are those of what was found in its lines. -/
theorem CheckedFile.report_eq_tally (file : CheckedFile) :
    file.report = Report.tally file.results :=
  Report.ofResults_eq_tally file.results

/-- The counts of all files together are those of what was found in all of their lines. -/
theorem totalReport_eq_tally (files : List CheckedFile) :
    totalReport files = Report.tally (files.flatMap CheckedFile.results) := by
  have hfold := Report.foldl_add_tally CheckedFile.results files {}
  simp only [← CheckedFile.report_eq_tally, Report.zero_add] at hfold
  exact hfold

/-- There are errors in the files if one of their lines is invalid. -/
theorem hasErrors_totalReport_iff {files : List CheckedFile} :
    (totalReport files).hasErrors = true ↔
      ∃ file ∈ files, ∃ result ∈ file.results, result.invalid = true := by
  simp only [totalReport_eq_tally, Report.tally, Report.hasErrors, decide_eq_true_eq,
    List.countP_pos_iff, List.mem_flatMap, LineResult.invalid, List.any_eq_true]
  constructor
  · rintro ⟨d, ⟨result, ⟨file, hfile, hresult⟩, hd⟩, herror⟩
    exact ⟨file, hfile, result, hresult, d, hd, herror⟩
  · rintro ⟨file, hfile, result, hresult, d, hd, herror⟩
    exact ⟨d, ⟨result, ⟨file, hfile, hresult⟩, hd⟩, herror⟩

end ItemFilter
