import ItemFilter.Proofs.FixedFiles
import ItemFilter.Proofs.Tallies

/-!
# The exit status of a check

A check ends with the status of the first file that it cannot handle, and otherwise tells by its
status whether there are errors. With fixes, the status can be told from the files as they are
stored before the check: whether a file is refused does not depend on those mended before it, and
every line of a file comes to the same in the end, however often its path is given.

## Main definitions

* `Classifier.status`: the exit status that goes with what became of files
* `Storage.refusal?`: the exit status for a file that is refused
* `Classifier.LeavesError`: a line that has an error when it is mended

## Main results

* `Invocation.exitStatus_run_check`: the exit status of a check
* `Classifier.status_checkFiles`: the exit status of a check with fixes, from the stored files
-/

namespace ItemFilter

open Text Classifier
open Cursor (atStart)

variable {c : Classifier} {before after : Storage} {path : String}

/-! ## What became of files -/

/-- The exit status that goes with what became of files. -/
def Classifier.status : Except CommandError (List CheckedFile) → Nat
  | .error e => e.exitStatus
  | .ok files => if (totalReport files).hasErrors then 1 else 0

/-- A check fails before it looks at files, or ends with what became of them. -/
theorem Invocation.exitStatus_run_check (flags : Flags) (options : CheckOptions)
    (environment : Environment) (storage : Storage) :
    (run ⟨flags, .check options⟩ environment storage).exitStatus =
      match Config.load environment storage with
      | .error e => (CommandError.config e).exitStatus
      | .ok config =>
        match config.classifier storage options.catalog options.noWarnings with
        | .error e => e.exitStatus
        | .ok c => status (c.checkFiles options.fix options.files storage).1 := by
  rcases hconfig : Config.load environment storage with e | config
  · rw [run, Invocation.config, hconfig]
    rfl
  · dsimp only
    rcases hclassifier : config.classifier storage options.catalog options.noWarnings with e | c
    · rw [run, Invocation.config, hconfig]
      dsimp only [Context.run]
      rw [Context.check, hclassifier]
      rfl
    · rw [run_check_eq flags hconfig hclassifier]
      dsimp only
      rcases c.checkFiles options.fix options.files storage with ⟨e | files, last⟩
      · rfl
      · dsimp only [RunOutcome.exitStatus, checked, status]
        cases (totalReport files).hasErrors <;> rfl

/-! ## Files that are refused -/

/-- The exit status of a check with fixes that stops at a path. -/
def Storage.refusal? (storage : Storage) (path : String) : Option Nat :=
  match storage.readText path with
  | .error _ => some 3
  | .ok text => if ∃ line ∈ Text.lines text.toList, '\r' ∈ line then some 1 else none

theorem Storage.Refuses.refusal?_eq {storage : Storage} {e : CommandError}
    (h : storage.Refuses path e) : storage.refusal? path = some e.exitStatus := by
  cases h with
  | unreadable htext =>
    rw [refusal?, htext]
    rfl
  | stray position htext hline hstray =>
    rw [refusal?, htext]
    exact if_pos ⟨_, hline, hstray⟩

/-- A file is not refused if its lines are without stray line breaks. -/
theorem Storage.refusal?_eq_none {storage : Storage} {text : String}
    (htext : storage.readText path = .ok text)
    (hlines : ∀ line ∈ Text.lines text.toList, Unbroken line) :
    storage.refusal? path = none := by
  rw [refusal?, htext]
  exact if_neg fun ⟨line, hline, hstray⟩ => (hlines line hline).cr_notMem hstray

namespace Classifier

namespace HandlesAll

variable {paths : List String} {files : List CheckedFile}

/-- What was mended is refused as little as before, and all else is as it was. -/
theorem refusal?_eq (h : c.HandlesAll before paths files after) (path : String) :
    after.refusal? path = before.refusal? path := by
  rcases h.readText_cases path with ⟨e, e', hold, hnew⟩ | ⟨old, new, hold, hnew, hlines | hmended⟩
  · rw [Storage.refusal?, Storage.refusal?, hold, hnew]
  · rw [Storage.refusal?, Storage.refusal?, hold, hnew]
    dsimp only
    rw [hlines]
  · rw [Storage.refusal?_eq_none hold (unbroken_of_mended hmended),
      Storage.refusal?_eq_none hnew fun line hline =>
        (settled_of_mended hmended line hline).unbroken]

/-- A file that is handled is not refused, be it before or after. -/
theorem refusal?_eq_none (h : c.HandlesAll before paths files after) :
    ∀ path ∈ paths, before.refusal? path = none := by
  rw [← h.paths_eq]
  intro path hpath
  obtain ⟨file, hfile, rfl⟩ := List.mem_map.mp hpath
  obtain ⟨text, mended, htext, hmended, -⟩ := h.exists_mended file hfile
  exact Storage.refusal?_eq_none htext (unbroken_of_mended hmended)

end HandlesAll

/-! ## Errors that are left -/

/-- A line that has an error when it is mended. -/
def LeavesError (c : Classifier) (line : Text) : Prop :=
  ∃ new, c.Mended line new ∧ (c.classify (atStart new)).invalid = true

/-- A line is mended in one way, so that it is enough to look at what it was mended to. -/
theorem Mended.leavesError_iff {line new : Text} (h : c.Mended line new) :
    c.LeavesError line ↔ (c.classify (atStart new)).invalid = true := by
  constructor
  · rintro ⟨other, hother, hinvalid⟩
    rwa [h.eq hother]
  · exact fun hinvalid => ⟨new, h, hinvalid⟩

/-- Files of which one has a line with an error when all are mended. -/
def LeavesErrors (c : Classifier) (storage : Storage) (paths : List String) : Prop :=
  ∃ path ∈ paths, ∃ text, storage.readText path = .ok text ∧
    ∃ line ∈ Text.lines text.toList, c.LeavesError line

/-- There is an error among the results of mended lines if one of the lines leaves an error. -/
theorem exists_invalid_iff {file : Option String} {n : Nat} {lines mended : List Text}
    (h : List.Forall₂ c.Mended lines mended) :
    (∃ result ∈ c.classifyFrom file n mended, result.invalid = true) ↔
      ∃ line ∈ lines, c.LeavesError line := by
  induction h generalizing n with
  | nil => simp [classifyFrom]
  | cons hline _ ih =>
    simp only [classifyFrom, List.exists_mem_cons_iff, LineResult.invalid_place,
      hline.leavesError_iff, ih]

/-- Errors are counted in handled files if one of their lines leaves an error. -/
theorem HandlesAll.hasErrors_iff {paths : List String} {files : List CheckedFile}
    (h : c.HandlesAll before paths files after) :
    (totalReport files).hasErrors = true ↔ c.LeavesErrors before paths := by
  have hfile : ∀ file ∈ files, (∃ result ∈ file.results, result.invalid = true) ↔
      ∃ text, before.readText file.path = .ok text ∧
        ∃ line ∈ Text.lines text.toList, c.LeavesError line := by
    intro file hfile
    obtain ⟨text, mended, htext, hmended, hresults⟩ := h.exists_mended file hfile
    have hinvalid : (∃ result ∈ file.results, result.invalid = true) ↔
        ∃ line ∈ Text.lines text.toList, c.LeavesError line := by
      rw [← exists_invalid_iff hmended, ← hresults]
      simp
    rw [hinvalid]
    constructor
    · exact fun hline => ⟨text, htext, hline⟩
    · rintro ⟨other, hother, hline⟩
      obtain rfl := Except.ok.inj (htext.symm.trans hother)
      exact hline
  rw [hasErrors_totalReport_iff, LeavesErrors, ← h.paths_eq]
  constructor
  · rintro ⟨file, hmem, hinvalid⟩
    exact ⟨file.path, List.mem_map_of_mem hmem, (hfile file hmem).mp hinvalid⟩
  · rintro ⟨path, hpath, hleaves⟩
    obtain ⟨file, hmem, rfl⟩ := List.mem_map.mp hpath
    exact ⟨file, hmem, (hfile file hmem).mpr hleaves⟩

open scoped Classical in
/-- The exit status of a check with fixes: that of the first file that is refused, or else whether a
line leaves an error. -/
theorem status_checkFiles (c : Classifier) (paths : List String) (before : Storage) :
    status (c.checkFiles true paths before).1 =
      (paths.findSome? before.refusal?).getD (if c.LeavesErrors before paths then 1 else 0) := by
  rcases c.checkFiles_cases paths before with
    ⟨handled, refused, rest, files, after, e, rfl, hhandles, hrefuses, hcheck⟩ |
      ⟨files, after, hhandles, hcheck⟩
  · -- The files that were handled were not refused before, and the one behind them was.
    have hhandled : handled.findSome? before.refusal? = none :=
      List.findSome?_eq_none_iff.mpr hhandles.refusal?_eq_none
    have hrefused : before.refusal? refused = some e.exitStatus := by
      rw [← hhandles.refusal?_eq, hrefuses.refusal?_eq]
    rw [hcheck, List.findSome?_append, hhandled, List.findSome?_cons, hrefused]
    rfl
  · rw [hcheck, List.findSome?_eq_none_iff.mpr hhandles.refusal?_eq_none]
    exact if_congr hhandles.hasErrors_iff rfl rfl

end Classifier

end ItemFilter
