import ItemFilter.Command.Run
import ItemFilter.Proofs.CatalogText
import ItemFilter.Proofs.Files
import ItemFilter.Proofs.StoredColumns

/-!
# Files that are fixed

A check with fixes mends one file after another, up to the first one that it refuses. A file is
written only if a line of it is edited or fixed, and what was mended once stays as it is when its
path comes again. So a second check of the same files finds the same problems and writes nothing.
This asks for the same catalog and the same configuration. The catalog is the same even if its file
is checked, as nothing is fixed in it; the configuration is not if its file is mended.

## Main definitions

* `Classifier.Handles`: what a check with fixes does with a file
* `Classifier.HandlesAll`: files that are handled one after another
* `Classifier.Tended`: lines that are mended or left as they are
* `Storage.Refuses`: a file that a check with fixes stops at
* `Invocation.checked`: what comes of a check that handled all files

## Main results

* `Classifier.checkFile_cases`: a file is handled or refused
* `Classifier.checkFiles_cases`: files are handled up to the first one that is refused
* `Classifier.HandlesAll.readText_cases`: what a check with fixes does with a text
* `Invocation.run_check`: what a check does, and what it does when it is run again
-/

namespace ItemFilter

open Text Classifier
open Cursor (atStart)

/-! ## One file -/

/-- What a second check finds in a file: the same problems, and nothing to be edited or fixed. -/
def CheckedFile.again (file : CheckedFile) : CheckedFile :=
  { file with
    results := file.results.map LineResult.withoutEdits
    fixed := 0
    saved := false }

theorem CheckedFile.diagnostics_again (file : CheckedFile) :
    file.again.diagnostics = file.diagnostics := by
  rw [diagnostics, again, List.flatMap_map]
  rfl

/-- A second check counts the same problems. -/
theorem totalReport_again (files : List CheckedFile) :
    totalReport (files.map CheckedFile.again) = totalReport files := by
  have hreport : ∀ file : CheckedFile, file.again.report = file.report := by
    intro file
    rw [CheckedFile.report, CheckedFile.again, Report.ofResults, List.foldl_map]
    rfl
  rw [totalReport, List.foldl_map]
  simp only [hreport]
  rfl

/-- Why a check with fixes stops at a path: its file cannot be read as text, or has a stray carriage
return in a line. -/
inductive Storage.Refuses (storage : Storage) (path : String) : CommandError → Prop where
  /-- There is no text at the path. -/
  | unreadable {e : StorageError} (h : storage.readText path = .error e) :
    Refuses storage path (.unreadable path e)
  /-- A line has a carriage return that does not belong to its end. -/
  | stray {text : String} {line : Text} (position : Nat) (h : storage.readText path = .ok text)
    (hline : line ∈ Text.lines text.toList) (hstray : '\r' ∈ line) :
    Refuses storage path (.document (.scan (.lineBreak position)))

namespace Classifier

variable {c : Classifier} {before after storage : Storage} {place : Place} {text : String}
  {mended : List Text} {file : CheckedFile}

/-- A text with other lines, and the line ending and the end that it had. -/
def withLines (text : String) (lines : List Text) : String :=
  String.ofList ({ Document.parse text.toList with lines } : Document).contents

theorem parse_withLines (h : List.Forall₂ c.Mended (Text.lines text.toList) mended) :
    Document.parse (withLines text mended).toList =
      { Document.parse text.toList with lines := mended } := by
  rw [withLines, String.toList_ofList]
  exact parse_mended h

/-- What a check with fixes does with a file that holds a text: it mends every line, and writes the
file if a line was changed. -/
structure Handles (c : Classifier) (before : Storage) (place : Place) (text : String)
    (mended : List Text) (file : CheckedFile) (after : Storage) : Prop where
  /-- The path of the file leads to its place. -/
  locate_eq : before.locate file.path = .ok place
  /-- The text is there. -/
  get?_eq : before.get? place = some (.file text.toUTF8)
  /-- Every line is mended. -/
  lines_mended : List.Forall₂ c.Mended (Text.lines text.toList) mended
  /-- All fixes are counted. -/
  fixed_eq : file.fixed =
    ((c.classifyFrom (some file.path) 0 (Text.lines text.toList)).flatMap LineResult.fixes).length
  /-- The results are those of the mended lines. -/
  results_eq : file.results.map LineResult.withoutEdits = c.classifyFrom (some file.path) 0 mended
  /-- The file is written if a line of it is edited or fixed. -/
  saved_iff : file.saved = true ↔ ∃ line ∈ Text.lines text.toList, c.NeedsMending line
  /-- The mended lines are read as they were written: as many as there were, with the line ending of
  the first one, and the last one ended if it was. -/
  parse_eq : Document.parse (withLines text mended).toList =
    { Document.parse text.toList with lines := mended }
  /-- The mended lines are written, and nothing else. -/
  after_eq : after =
    if file.saved then before.set place (.file (withLines text mended).toUTF8) else before

/-- A file is handled or refused. -/
theorem checkFile_cases (c : Classifier) (path : String) (storage : Storage) :
    (∃ e, c.checkFile true path storage = .error e ∧ storage.Refuses path e) ∨
      ∃ place text mended file after, file.path = path ∧
        c.Handles storage place text mended file after ∧
        c.checkFile true path storage = .ok (file, after) := by
  rcases htext : storage.readText path with e | text
  · refine Or.inl ⟨_, ?_, .unreadable htext⟩
    rw [checkFile, htext]
  · by_cases hlines : ∀ line ∈ (Document.parse text.toList).lines, Unbroken line
    · refine Or.inr ?_
      obtain ⟨results, mended, hmended, hresults, hfix⟩ :=
        c.fixDocument_eq (some path) (Document.parse text.toList) hlines
      obtain ⟨place, hlocate, hget⟩ := Storage.readText_eq_ok_iff.mp htext
      have hiff := contents_mended_ne_iff hmended
      have hparse := parse_withLines hmended
      generalize hcount : ((c.classifyFrom (some path) 0 (Document.parse text.toList).lines).flatMap
        LineResult.fixes).length = count at hfix
      by_cases hneeds : ∃ line ∈ Text.lines text.toList, c.NeedsMending line
      · refine ⟨place, text, mended, ⟨path, results, count, true⟩, _, rfl,
          ⟨hlocate, hget, hmended, hcount.symm, hresults, by simpa using hneeds,
            hparse, rfl⟩, ?_⟩
        rw [checkFile, htext]
        simp [checkDocument, hfix, hiff.mpr hneeds, Storage.write_of_readText hlocate hget,
          withLines]
      · refine ⟨place, text, mended, ⟨path, results, count, false⟩, _, rfl,
          ⟨hlocate, hget, hmended, hcount.symm, hresults, by simpa using hneeds,
            hparse, rfl⟩, ?_⟩
        rw [checkFile, htext]
        simp [checkDocument, hfix, not_ne_iff.mp (mt hiff.mp hneeds)]
    · refine Or.inl ?_
      obtain ⟨position, hfix⟩ := c.fixDocument_of_break (some path) hlines
      simp only [not_forall] at hlines
      obtain ⟨line, hline, hbroken⟩ := hlines
      rw [unbroken_iff_of_mem_lines hline, not_not] at hbroken
      refine ⟨_, ?_, .stray position htext hline hbroken⟩
      rw [checkFile, htext]
      simp [checkDocument, hfix]

/-! ## File after file -/

namespace Handles

variable (h : c.Handles before place text mended file after)
include h

theorem sameEntries : before.SameEntries after := by
  rw [h.after_eq]
  split
  · exact Storage.sameEntries_set h.get?_eq _
  · exact .refl before

/-- What is there after a file was handled: the mended lines. -/
theorem exists_settled : ∃ new : String, after.get? place = some (.file new.toUTF8) ∧
    Text.lines new.toList = mended := by
  have hplace : before.get? place ≠ some .directory := by simp [h.get?_eq]
  rw [h.after_eq]
  split
  · refine ⟨withLines text mended, ?_, ?_⟩
    · rw [Storage.get?_set _ (Storage.ne_nil_of_get? hplace), if_pos rfl]
    · exact congrArg Document.lines h.parse_eq
  · next hsaved =>
    refine ⟨text, h.get?_eq, Eq.symm ?_⟩
    rw [mended_eq_iff h.lines_mended]
    intro line hline hneeds
    exact hsaved (h.saved_iff.mpr ⟨line, hline, hneeds⟩)

/-- Only the file that is handled can change. -/
theorem get?_of_ne {other : Place} (hne : other ≠ place ∨ file.saved = false) :
    after.get? other = before.get? other := by
  have hplace : before.get? place ≠ some .directory := by simp [h.get?_eq]
  rw [h.after_eq]
  split
  · next hsaved => rw [Storage.get?_set _ (Storage.ne_nil_of_get? hplace),
      if_neg (hne.resolve_right (by simp [hsaved]))]
  · rfl

/-- A text of settled lines stays as it is. -/
theorem get?_of_settled {other : Place} {kept : String}
    (hkept : before.get? other = some (.file kept.toUTF8))
    (hsettled : ∀ line ∈ Text.lines kept.toList, ¬ c.NeedsMending line) :
    after.get? other = some (.file kept.toUTF8) := by
  by_cases hother : other = place
  · subst hother
    obtain rfl := Storage.text_eq_of_get? h.get?_eq hkept
    rw [h.get?_of_ne (Or.inr ?_), hkept]
    rw [← Bool.not_eq_true, h.saved_iff]
    rintro ⟨line, hline, hneeds⟩
    exact hsettled line hline hneeds
  · rw [h.get?_of_ne (Or.inl hother), hkept]

end Handles

/-- Files that are handled one after another, each in the storage that the one before left. -/
inductive HandlesAll (c : Classifier) :
    Storage → List String → List CheckedFile → Storage → Prop where
  /-- Nothing is done without files. -/
  | nil (storage : Storage) : HandlesAll c storage [] [] storage
  /-- The first file is handled before the others. -/
  | cons {before middle after : Storage} {place : Place} {text : String} {mended : List Text}
      {file : CheckedFile} {paths : List String} {files : List CheckedFile}
      (first : c.Handles before place text mended file middle)
      (rest : HandlesAll c middle paths files after) :
      HandlesAll c before (file.path :: paths) (file :: files) after

/-- Files are handled up to the first one that is refused. -/
theorem checkFiles_cases (c : Classifier) (paths : List String) (before : Storage) :
    (∃ handled refused rest files after e, paths = handled ++ refused :: rest ∧
      c.HandlesAll before handled files after ∧ after.Refuses refused e ∧
      c.checkFiles true paths before = (.error e, after)) ∨
    ∃ files after, c.HandlesAll before paths files after ∧
      c.checkFiles true paths before = (.ok files, after) := by
  -- Induction on the paths, the storage changing with each.
  induction paths generalizing before with
  | nil => exact Or.inr ⟨[], before, .nil before, rfl⟩
  | cons path paths ih =>
    rcases c.checkFile_cases path before with
      ⟨e, hcheck, hrefuses⟩ | ⟨place, text, mended, file, middle, rfl, hfile, hcheck⟩
    · refine Or.inl ⟨[], path, paths, [], before, e, rfl, .nil before, hrefuses, ?_⟩
      rw [checkFiles, hcheck]
    · rcases ih middle with
        ⟨handled, refused, rest, files, after, e, rfl, hfiles, hrefuses, hrest⟩ |
        ⟨files, after, hfiles, hrest⟩
      · refine Or.inl ⟨file.path :: handled, refused, rest, file :: files, after, e, rfl,
          .cons hfile hfiles, hrefuses, ?_⟩
        rw [checkFiles, hcheck]
        dsimp only
        rw [hrest]
        rfl
      · refine Or.inr ⟨file :: files, after, .cons hfile hfiles, ?_⟩
        rw [checkFiles, hcheck]
        dsimp only
        rw [hrest]
        rfl

namespace HandlesAll

variable {paths : List String} {files : List CheckedFile}

theorem sameEntries (h : c.HandlesAll before paths files after) : before.SameEntries after := by
  induction h with
  | nil storage => exact .refl storage
  | cons first _ ih => exact first.sameEntries.trans ih

theorem paths_eq (h : c.HandlesAll before paths files after) :
    files.map CheckedFile.path = paths := by
  induction h with
  | nil => rfl
  | cons _ _ ih => rw [List.map_cons, ih]

/-- Only files that are written change. -/
theorem exists_saved (h : c.HandlesAll before paths files after) {place : Place}
    (hne : after.get? place ≠ before.get? place) :
    ∃ file ∈ files, file.saved = true ∧ before.locate file.path = .ok place := by
  induction h with
  | nil => exact absurd rfl hne
  | @cons before middle after own text mended file paths files first rest ih =>
    by_cases hrest : after.get? place = middle.get? place
    · -- The first file was the last to change here.
      rw [hrest] at hne
      have hplace : place = own ∧ file.saved = true := by
        by_contra hnot
        rw [not_and_or, Bool.not_eq_true] at hnot
        exact hne (first.get?_of_ne hnot)
      exact ⟨file, List.mem_cons_self .., hplace.2, hplace.1 ▸ first.locate_eq⟩
    · obtain ⟨other, hother, hsaved, hlocate⟩ := ih hrest
      exact ⟨other, List.mem_cons_of_mem _ hother, hsaved,
        first.sameEntries.symm.locate_eq_ok hlocate⟩

/-- A text of settled lines stays as it is. -/
theorem get?_of_settled (h : c.HandlesAll before paths files after) {place : Place} {kept : String}
    (hkept : before.get? place = some (.file kept.toUTF8))
    (hsettled : ∀ line ∈ Text.lines kept.toList, ¬ c.NeedsMending line) :
    after.get? place = some (.file kept.toUTF8) := by
  induction h with
  | nil => exact hkept
  | cons first _ ih => exact ih (first.get?_of_settled hkept hsettled)

/-- What is at the path of a file that was handled: settled lines, which its results are about. -/
theorem exists_readText (h : c.HandlesAll before paths files after) :
    ∀ file ∈ files, ∃ text, after.readText file.path = .ok text ∧
      (∀ line ∈ Text.lines text.toList, c.Settled line) ∧
      file.results.map LineResult.withoutEdits =
        c.classifyFrom (some file.path) 0 (Text.lines text.toList) := by
  induction h with
  | nil => nofun
  | @cons before middle after place text mended file paths files first rest ih =>
    refine List.forall_mem_cons.mpr ⟨?_, ih⟩
    obtain ⟨new, hnew, rfl⟩ := first.exists_settled
    have hsettled := settled_of_mended first.lines_mended
    have hlast := rest.get?_of_settled hnew fun line hline =>
      (hsettled line hline).not_needsMending
    have hlocate := (first.sameEntries.trans rest.sameEntries).locate_eq_ok first.locate_eq
    exact ⟨new, Storage.readText_eq_ok_iff.mpr ⟨place, hlocate, hlast⟩, hsettled,
      first.results_eq⟩

end HandlesAll

/-! ## Texts that are mended -/

/-- Lines that are mended, or left as they are. -/
def Tended (c : Classifier) (lines new : List Text) : Prop :=
  new = lines ∨ List.Forall₂ c.Mended lines new

/-- Lines that were mended once stay as they are. -/
theorem Tended.trans {lines middle last : List Text} (h : c.Tended lines middle)
    (h' : c.Tended middle last) : c.Tended lines last := by
  rcases h with rfl | h
  · exact h'
  · rcases h' with rfl | h'
    · exact Or.inr h
    · obtain rfl := (mended_eq_iff h').mpr fun line hline =>
        (settled_of_mended h line hline).not_needsMending
      exact Or.inr h

/-- A check with fixes reads the texts that can be read, and mends them if it changes them. -/
theorem Handles.readText_cases {place : Place} {text : String} {mended : List Text}
    {file : CheckedFile} (h : c.Handles before place text mended file after) (path : String) :
    (∃ e e', before.readText path = .error e ∧ after.readText path = .error e') ∨
      ∃ old new, before.readText path = .ok old ∧ after.readText path = .ok new ∧
        c.Tended (Text.lines old.toList) (Text.lines new.toList) := by
  rcases hold : before.readText path with e | old
  · refine Or.inl ⟨e, ?_⟩
    rcases hnew : after.readText path with e' | new
    · exact ⟨e', rfl, rfl⟩
    -- What can be read afterwards could be read before.
    exfalso
    obtain ⟨other, hlocate, hget⟩ := Storage.readText_eq_ok_iff.mp hnew
    have hlocate' := h.sameEntries.symm.locate_eq_ok hlocate
    have hread : ∃ text : String, before.get? other = some (.file text.toUTF8) := by
      by_cases hplace : other = place
      · exact ⟨text, hplace ▸ h.get?_eq⟩
      · exact ⟨new, (h.get?_of_ne (Or.inl hplace)).symm.trans hget⟩
    obtain ⟨found, hfound⟩ := hread
    rw [Storage.readText_eq_ok_iff.mpr ⟨other, hlocate', hfound⟩] at hold
    cases hold
  · refine Or.inr ⟨old, ?_⟩
    obtain ⟨other, hlocate, hget⟩ := Storage.readText_eq_ok_iff.mp hold
    have hlocate' := h.sameEntries.locate_eq_ok hlocate
    by_cases hplace : other = place
    · subst hplace
      obtain rfl := Storage.text_eq_of_get? h.get?_eq hget
      obtain ⟨new, hnew, hlines⟩ := h.exists_settled
      exact ⟨new, rfl, Storage.readText_eq_ok_iff.mpr ⟨other, hlocate', hnew⟩,
        Or.inr (hlines ▸ h.lines_mended)⟩
    · rw [← h.get?_of_ne (Or.inl hplace)] at hget
      exact ⟨old, rfl, Storage.readText_eq_ok_iff.mpr ⟨other, hlocate', hget⟩, Or.inl rfl⟩

namespace HandlesAll

variable {paths : List String} {files : List CheckedFile}

/-- Texts that can be read are tended, and no others come to be. -/
theorem readText_cases (h : c.HandlesAll before paths files after) (path : String) :
    (∃ e e', before.readText path = .error e ∧ after.readText path = .error e') ∨
      ∃ old new, before.readText path = .ok old ∧ after.readText path = .ok new ∧
        c.Tended (Text.lines old.toList) (Text.lines new.toList) := by
  induction h with
  | nil storage =>
    rcases htext : storage.readText path with e | text
    · exact Or.inl ⟨e, e, rfl, rfl⟩
    · exact Or.inr ⟨text, text, rfl, rfl, Or.inl rfl⟩
  | cons first _ ih =>
    rcases first.readText_cases path with
      ⟨e, e', hold, hmiddle⟩ | ⟨old, middle, hold, hmiddle, htended⟩
    · rcases ih with ⟨-, e'', -, hnew⟩ | ⟨middle, -, hother, -⟩
      · exact Or.inl ⟨e, e'', hold, hnew⟩
      · cases hmiddle.symm.trans hother
    · rcases ih with ⟨e, -, hother, -⟩ | ⟨other, new, hother, hnew, hrest⟩
      · cases hmiddle.symm.trans hother
      · obtain rfl := Except.ok.inj (hmiddle.symm.trans hother)
        exact Or.inr ⟨old, new, hold, hnew, htended.trans hrest⟩

/-- A file that was handled had its lines mended, and its results are about the mended lines. -/
theorem exists_mended (h : c.HandlesAll before paths files after) :
    ∀ file ∈ files, ∃ text mended, before.readText file.path = .ok text ∧
      List.Forall₂ c.Mended (Text.lines text.toList) mended ∧
      file.results.map LineResult.withoutEdits = c.classifyFrom (some file.path) 0 mended := by
  intro file hfile
  obtain ⟨new, hnew, hsettled, hresults⟩ := h.exists_readText file hfile
  rcases h.readText_cases file.path with ⟨-, e, -, herror⟩ | ⟨old, other, hold, hother, htended⟩
  · cases hnew.symm.trans herror
  · obtain rfl := Except.ok.inj (hnew.symm.trans hother)
    refine ⟨old, _, hold, ?_, hresults⟩
    rcases htended with hlines | hmended
    · -- All lines were settled already, so that mending leaves them as they are.
      rw [← hlines, List.forall₂_same]
      exact fun line hline => (hsettled line hline).mended_self
    · exact hmended

/-- The result of a line with nothing to be edited or fixed is found at its number. -/
theorem exists_result (h : c.HandlesAll before paths files after) :
    ∀ file ∈ files, ∀ text, before.readText file.path = .ok text →
      ∀ (i : Nat) (line : Text), (Text.lines text.toList)[i]? = some line →
        ¬ c.NeedsMending line → ∃ result, file.results[i]? = some result ∧
          result.diagnostics =
            ((c.classify (atStart line)).place ⟨some file.path, i⟩).diagnostics := by
  intro file hfile text htext i line hi hline
  obtain ⟨old, mended, hold, hmended, hresults⟩ := h.exists_mended file hfile
  obtain rfl := Except.ok.inj (htext.symm.trans hold)
  obtain ⟨new, hnew, hline'⟩ := Document.exists_getElem?_of_forall₂ hmended hi
  obtain rfl := hline'.eq_iff.mpr hline
  have hresult := congrArg (fun results => results[i]?) hresults
  simp only [List.getElem?_map, Document.getElem?_classifyFrom, hnew, Option.map_some,
    Nat.zero_add, Option.map_eq_some_iff] at hresult
  obtain ⟨result, hfound, hresult⟩ := hresult
  have hdiagnostics := congrArg LineResult.diagnostics hresult
  exact ⟨result, hfound, hdiagnostics⟩

end HandlesAll

/-! ## Checks that handle all files -/

/-- Without fixes, the files stay as they are, and the results are those of the stored lines. -/
theorem results_of_checkFiles {paths : List String} {files : List CheckedFile}
    (hcheck : c.checkFiles false paths before = (.ok files, after)) :
    after = before ∧ files.map CheckedFile.path = paths ∧
      ∀ file ∈ files, ∃ text, before.readText file.path = .ok text ∧
        file.results = c.classifyFrom (some file.path) 0 (Text.lines text.toList) := by
  rcases c.checkFiles_readOnly paths before with ⟨e, hfiles, -⟩ | ⟨found, hfiles, hpaths, hlint⟩
  · rw [hfiles] at hcheck
    cases hcheck
  · rw [hfiles] at hcheck
    obtain ⟨hfound, rfl⟩ := Prod.mk.inj hcheck
    obtain rfl := Except.ok.inj hfound
    refine ⟨rfl, hpaths, fun file hfile => ?_⟩
    obtain ⟨text, htext, hresults⟩ := hlint file hfile
    obtain ⟨edited, hlinted, -⟩ := Document.lintFrom_eq c (some file.path) 0
      (Document.unbroken_of_lint hresults)
    rw [Document.lint, hlinted] at hresults
    exact ⟨text, htext, (Except.ok.inj hresults).symm⟩

/-- With fixes, the files are handled one after another. -/
theorem HandlesAll.of_checkFiles {paths : List String} {files : List CheckedFile}
    (hcheck : c.checkFiles true paths before = (.ok files, after)) :
    c.HandlesAll before paths files after := by
  rcases c.checkFiles_cases paths before with
    ⟨handled, refused, rest, found, last, e, -, -, -, hfiles⟩ | ⟨found, last, hhandles, hfiles⟩
  · rw [hfiles] at hcheck
    cases hcheck
  · rw [hfiles] at hcheck
    obtain ⟨hfound, rfl⟩ := Prod.mk.inj hcheck
    obtain rfl := Except.ok.inj hfound
    exact hhandles

/-- The problems of a line with nothing to be edited or fixed are reported as they are, by a check
with fixes and by one without. -/
theorem exists_result_of_checkFiles {fix : Bool} {paths : List String} {files : List CheckedFile}
    (hcheck : c.checkFiles fix paths before = (.ok files, after)) :
    ∀ file ∈ files, ∀ text, before.readText file.path = .ok text →
      ∀ (i : Nat) (line : Text), (Text.lines text.toList)[i]? = some line →
        ¬ c.NeedsMending line → ∃ result, file.results[i]? = some result ∧
          result.diagnostics =
            ((c.classify (atStart line)).place ⟨some file.path, i⟩).diagnostics := by
  cases fix with
  | false =>
    obtain ⟨-, -, hfound⟩ := results_of_checkFiles hcheck
    intro file hfile text htext i line hi hline
    obtain ⟨stored, hstored, hresults⟩ := hfound file hfile
    obtain rfl := Except.ok.inj (htext.symm.trans hstored)
    refine ⟨(c.classify (atStart line)).place ⟨some file.path, i⟩, ?_, rfl⟩
    rw [hresults, Document.getElem?_classifyFrom, hi, Nat.zero_add]
    rfl
  | true => exact (HandlesAll.of_checkFiles hcheck).exists_result

/-! ## A second check -/

theorem checkFile_of_settled {path : String} (htext : storage.readText path = .ok text)
    (h : ∀ line ∈ Text.lines text.toList, c.Settled line) :
    c.checkFile true path storage =
      .ok (⟨path, c.classifyFrom (some path) 0 (Text.lines text.toList), 0, false⟩, storage) := by
  have hfix : c.fixDocument (some path) (Document.parse text.toList) =
      .ok ⟨c.classifyFrom (some path) 0 (Text.lines text.toList), 0, Document.parse text.toList⟩ :=
    fixDocument_of_settled (some path) h
  rw [checkFile, htext]
  simp only [checkDocument, hfix, if_true, ne_eq, not_true_eq_false, and_false, if_false]

/-- Files that were handled are left alone by a second check. -/
theorem HandlesAll.checkFiles_again {paths : List String} {files : List CheckedFile}
    (h : c.HandlesAll before paths files after) :
    c.checkFiles true paths after = (.ok (files.map CheckedFile.again), after) := by
  rw [← h.paths_eq]
  have hfiles := h.exists_readText
  clear h
  induction files with
  | nil => rfl
  | cons file files ih =>
    rw [List.forall_mem_cons] at hfiles
    obtain ⟨⟨text, htext, hsettled, hresults⟩, hrest⟩ := hfiles
    rw [List.map_cons, checkFiles, checkFile_of_settled htext hsettled]
    dsimp only
    rw [ih hrest, ← hresults]
    rfl

end Classifier

/-! ## The configuration and the catalog -/

namespace Config

variable {before after : Storage} {config : Config} {path : String}

/-- The configuration is the same unless its file was written. -/
theorem loadFrom_eq (h : before.SameEntries after)
    (hplace : ∀ place, before.locate path = .ok place → after.get? place = before.get? place) :
    loadFrom after path = loadFrom before path := by
  unfold loadFrom
  rw [h.has_eq]
  cases hlocate : before.locate path with
  | error e => simp [Storage.has, hlocate]
  | ok place =>
    have hread : after.readText path = before.readText path := by
      simp only [Storage.readText, Storage.read, hlocate, h.locate_eq_ok hlocate,
        hplace place hlocate]
    rw [hread]

theorem load_eq {environment : Environment} (h : before.SameEntries after)
    (hplace : ∀ path, environment.configPath? = some path →
      ∀ place, before.locate path = .ok place → after.get? place = before.get? place) :
    load environment after = load environment before := by
  unfold load Environment.configPath
  cases hpath : environment.configPath? with
  | none => rfl
  | some path => exact loadFrom_eq h (hplace path hpath)

/-- The catalog is the same after files were handled, even if its own file was among them. -/
theorem classifier_eq {c : Classifier} {paths : List String} {files : List CheckedFile}
    {noWarnings : Bool} {catalog : Option String}
    (h : c.HandlesAll before paths files after)
    (hclassifier : config.classifier before catalog noWarnings = .ok c) :
    config.classifier after catalog noWarnings = .ok c := by
  unfold classifier loadCatalog at hclassifier ⊢
  cases hpath : catalog.or config.catalog with
  | none =>
    rw [hpath] at hclassifier
    exact hclassifier
  | some path =>
    rw [hpath] at hclassifier
    dsimp only at hclassifier ⊢
    have hload : ∀ catalog, Catalog.load before path = .ok catalog →
        Catalog.load after path = .ok catalog := by
      intro catalog hload
      unfold Catalog.load at hload
      rcases htext : before.readText path with e | text
      · simp [htext] at hload
      · rw [htext] at hload
        dsimp only at hload
        split at hload
        · next hjson =>
          obtain ⟨place, hlocate, hget⟩ := Storage.readText_eq_ok_iff.mp htext
          have hafter := h.get?_of_settled hget (Catalog.not_needsMending_of_ofJson? hjson c)
          have htext' := Storage.readText_eq_ok_iff.mpr
            ⟨place, h.sameEntries.locate_eq_ok hlocate, hafter⟩
          rw [Catalog.load, htext']
          simp [hjson, Except.ok.inj hload]
        · cases hload
    rcases hcatalog : Catalog.load before path with e | found
    · simp [hcatalog, Except.map] at hclassifier
    · rw [hcatalog] at hclassifier
      rw [hload found hcatalog]
      exact hclassifier

end Config

/-! ## Checks with fixes -/

namespace Invocation

/-- What comes of a check that handled all files. -/
def checked (flags : Flags) (colors : Bool) (files : List CheckedFile) (storage : Storage) :
    RunOutcome :=
  { output :=
      if flags.json then Context.printed (checkJson files) else listingText flags colors files
    failure :=
      if (totalReport files).hasErrors then some (.errorsFound (totalReport files).errors) else none
    storage }

/-- A check with a configuration and a catalog, up to what becomes of the files. -/
theorem run_check_eq (flags : Flags) {options : CheckOptions} {environment : Environment}
    {storage : Storage} {config : Config} {c : Classifier}
    (hconfig : Config.load environment storage = .ok config)
    (hclassifier : config.classifier storage options.catalog options.noWarnings = .ok c) :
    run ⟨flags, .check options⟩ environment storage =
      match c.checkFiles options.fix options.files storage with
      | (.error e, last) => { failure := some e, storage := last }
      | (.ok files, last) =>
        checked flags (!flags.noColor && environment.allowsColor && config.color.getD true) files
          last := by
  unfold run Invocation.config
  rw [hconfig]
  dsimp only [Context.run]
  rw [Context.check, hclassifier]
  dsimp only
  rcases c.checkFiles options.fix options.files storage with ⟨e | files, last⟩
  · rfl
  · rfl

/-- A check without fixes changes nothing. A check with fixes handles one file after another, up to
the first one that it refuses, and changes nothing but the files that it writes. If no file is
refused, then the same check again finds the same problems, and changes nothing, as long as the
configuration is still the same; and it is, unless its file is one of those that were written. -/
theorem run_check (flags : Flags) (options : CheckOptions) (environment : Environment)
    (before : Storage) {config : Config} {c : Classifier}
    (hconfig : Config.load environment before = .ok config)
    (hclassifier : config.classifier before options.catalog options.noWarnings = .ok c) :
    (options.fix = false →
      (run ⟨flags, .check options⟩ environment before).storage = before) ∧
    (options.fix = true → ∃ handled rest files after,
      options.files = handled ++ rest ∧ c.HandlesAll before handled files after ∧
      (∀ place, after.get? place ≠ before.get? place →
        ∃ file ∈ files, file.saved = true ∧ before.locate file.path = .ok place) ∧
      ((∃ refused others e, rest = refused :: others ∧ after.Refuses refused e ∧
          run ⟨flags, .check options⟩ environment before =
            { failure := some e, storage := after }) ∨
        (rest = [] ∧ ∃ colors,
          run ⟨flags, .check options⟩ environment before = checked flags colors files after ∧
          ((∀ path, environment.configPath? = some path → ∀ file ∈ files, file.saved = true →
              before.locate file.path ≠ before.locate path) →
            Config.load environment after = .ok config) ∧
          (Config.load environment after = .ok config →
            run ⟨flags, .check options⟩ environment after =
              checked flags colors (files.map CheckedFile.again) after ∧
            (∀ file ∈ files, file.again.diagnostics = file.diagnostics) ∧
            totalReport (files.map CheckedFile.again) = totalReport files)))) := by
  have hrun := run_check_eq flags hconfig hclassifier
  constructor
  · intro hfix
    rw [hrun, hfix]
    rcases c.checkFiles_readOnly options.files before with ⟨e, hfiles, -⟩ | ⟨files, hfiles, -⟩
    · rw [hfiles]
    · rw [hfiles]
      rfl
  · intro hfix
    rw [hfix] at hrun
    rcases c.checkFiles_cases options.files before with
      ⟨handled, refused, others, files, after, e, hpaths, hhandles, hrefuses, hfiles⟩ |
        ⟨files, after, hhandles, hfiles⟩
    · rw [hfiles] at hrun
      exact ⟨handled, refused :: others, files, after, hpaths, hhandles,
        fun _ => hhandles.exists_saved, Or.inl ⟨refused, others, e, rfl, hrefuses, hrun⟩⟩
    · rw [hfiles] at hrun
      refine ⟨options.files, [], files, after, by simp, hhandles,
        fun _ => hhandles.exists_saved, Or.inr ⟨rfl, _, hrun, ?_, ?_⟩⟩
      · intro hsaved
        rw [Config.load_eq hhandles.sameEntries, hconfig]
        intro path hpath place hlocate
        by_contra hchanged
        obtain ⟨file, hfile, hfilesaved, hplace⟩ := hhandles.exists_saved hchanged
        exact hsaved path hpath file hfile hfilesaved (hplace.trans hlocate.symm)
      · intro hagain
        refine ⟨?_, fun file _ => file.diagnostics_again, totalReport_again files⟩
        rw [run_check_eq flags hagain (Config.classifier_eq hhandles hclassifier), hfix,
          hhandles.checkFiles_again]

/-- A directory with a filter in which there is something to edit and something to fix. -/
def mixedFilter : Storage :=
  { entries := [(["a.filter"], .file "Show all\r\nSetTextColor #ff000a\n".toUTF8)] }

/-- The filter is given twice. -/
theorem run_check_mixed :
    Config.load { configFile := some "config.toml" } mixedFilter = .ok {} ∧
    ∃ handled rest files after, ["a.filter", "a.filter"] = handled ++ rest ∧
      HandlesAll ⟨Config.extend {} .builtin, true⟩ mixedFilter handled files after ∧
      (∀ place, after.get? place ≠ mixedFilter.get? place →
        ∃ file ∈ files, file.saved = true ∧ mixedFilter.locate file.path = .ok place) ∧
      ((∃ refused others e, rest = refused :: others ∧ after.Refuses refused e ∧
          run ⟨{}, .check ⟨["a.filter", "a.filter"], true, false, none⟩⟩
              { configFile := some "config.toml" } mixedFilter =
            { failure := some e, storage := after }) ∨
        (rest = [] ∧ ∃ colors,
          run ⟨{}, .check ⟨["a.filter", "a.filter"], true, false, none⟩⟩
              { configFile := some "config.toml" } mixedFilter = checked {} colors files after ∧
          ((∀ path, some "config.toml" = some path → ∀ file ∈ files, file.saved = true →
              mixedFilter.locate file.path ≠ mixedFilter.locate path) →
            Config.load { configFile := some "config.toml" } after = .ok {}) ∧
          (Config.load { configFile := some "config.toml" } after = .ok {} →
            run ⟨{}, .check ⟨["a.filter", "a.filter"], true, false, none⟩⟩
                { configFile := some "config.toml" } after =
              checked {} colors (files.map CheckedFile.again) after ∧
            (∀ file ∈ files, file.again.diagnostics = file.diagnostics) ∧
            totalReport (files.map CheckedFile.again) = totalReport files))) := by
  have hconfig : Config.load { configFile := some "config.toml" } mixedFilter = .ok {} := by decide
  exact ⟨hconfig, (run_check {} ⟨["a.filter", "a.filter"], true, false, none⟩
    { configFile := some "config.toml" } mixedFilter hconfig rfl).2 rfl⟩

/-- A directory with a configuration that has a line like a filter. -/
def showConfiguration : Storage :=
  { entries := [(["config.toml"], .file "Show = 1\n".toUTF8)] }

/-- What a fix leaves of the configuration. -/
theorem checkFiles_showConfiguration :
    ∃ files after, Classifier.checkFiles ⟨Config.extend {} .builtin, true⟩ true ["config.toml"]
        showConfiguration = (.ok files, after) ∧
      after.readText "config.toml" = .ok "Show # = 1\n" := by
  have hfiles : (Classifier.checkFiles ⟨Config.extend {} .builtin, true⟩ true ["config.toml"]
      showConfiguration).1.toOption.isSome = true := by decide +kernel
  have hafter : (Classifier.checkFiles ⟨Config.extend {} .builtin, true⟩ true ["config.toml"]
      showConfiguration).2.readText "config.toml" = .ok "Show # = 1\n" := by decide +kernel
  rcases hcheck : Classifier.checkFiles ⟨Config.extend {} .builtin, true⟩ true ["config.toml"]
      showConfiguration with ⟨e | files, after⟩
  · rw [hcheck] at hfiles
    cases hfiles
  · rw [hcheck] at hafter
    exact ⟨files, after, rfl, hafter⟩

/-- A check may mend its own configuration, which is none any more after that, so that the same
check cannot be run again. -/
theorem exists_unrepeatable :
    ¬ ∀ (flags : Flags) (options : CheckOptions) (environment : Environment) (before : Storage)
        (config : Config) (c : Classifier),
      Config.load environment before = .ok config →
      config.classifier before options.catalog options.noWarnings = .ok c →
      options.fix = true →
      ∀ files after, c.checkFiles true options.files before = (.ok files, after) →
        ∃ colors, run ⟨flags, .check options⟩ environment after =
          checked flags colors (files.map CheckedFile.again) after := by
  intro h
  obtain ⟨files, after, hcheck, htext⟩ := checkFiles_showConfiguration
  have hload : Config.load { configFile := some "config.toml" } after = .error .malformed := by
    have hnone : Config.ofToml? "Show # = 1\n".toList = none := by decide +kernel
    have hfrom : Config.loadFrom after "config.toml" = .error .malformed := by
      rw [Config.loadFrom, if_pos (Storage.has_of_readText htext), htext]
      dsimp only
      rw [hnone]
    exact hfrom
  have hbefore : Config.load { configFile := some "config.toml" } showConfiguration = .ok {} := by
    decide +kernel
  obtain ⟨colors, hrun⟩ := h {} ⟨["config.toml"], true, false, none⟩
    { configFile := some "config.toml" } showConfiguration {} _ hbefore rfl rfl files after hcheck
  -- The second run ends with the failure to load the configuration.
  have hfailure := congrArg RunOutcome.failure hrun
  rw [run, Invocation.config, hload] at hfailure
  dsimp only [checked] at hfailure
  split at hfailure
  · cases hfailure
  · cases hfailure

end Invocation

end ItemFilter
