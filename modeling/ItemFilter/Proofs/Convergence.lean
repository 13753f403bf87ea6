import Mathlib.Data.List.Forall2
import ItemFilter.Document.Fixing
import ItemFilter.Proofs.Repair

/-!
# Linting and fixing a document

Linting classifies the lines of a document one by one, and one pass over the fixes that come with
the results treats each line on its own. After both, no line can be edited or fixed any further, so
that a second round leaves the document as it is.

## Main definitions

* `Classifier.Settled`: a line that is neither edited nor fixed
* `Classifier.Fixed`: a line with its fixes made
* `Classifier.classifyFrom`: the results of consecutive lines

## Main results

* `Document.lintFrom_eq`: linting makes the edits of every line
* `Document.applyFixes_fixed`: the fixes of all lines are made, each line on its own
* `Document.applyFixes_lines`: they leave all lines settled
* `Document.lint_applyFixes`: one round of linting and fixing is enough
-/

namespace ItemFilter

open Text Classifier
open Cursor hiding read

/-! ## Settled lines -/

/-- There are as many fixes as problems that have one. -/
theorem LineResult.length_flatMap_fixes {P : Type} (results : List (LineResult P)) :
    (results.flatMap fixes).length =
      (results.flatMap diagnostics).countP fun d => d.fix.isSome := by
  induction results with
  | nil => rfl
  | cons result results ih =>
    rw [List.flatMap_cons, List.flatMap_cons, List.length_append, List.countP_append, ih, fixes,
      List.length_filterMap_eq_countP]

namespace Classifier

/-- A line that is not edited while it is read, and has only errors without fixes. -/
structure Settled (c : Classifier) (line : Text) : Prop where
  /-- The line has no line breaks. -/
  unbroken : Unbroken line
  /-- The line is not edited. -/
  edits_eq : (c.classify (atStart line)).edits = []
  /-- Its problems are errors without fixes. -/
  plain : ∀ d ∈ (c.classify (atStart line)).diagnostics, d.isError = true ∧ d.fix = none

variable {c : Classifier} {line : Text}

theorem Settled.fixes_eq (h : c.Settled line) : (c.classify (atStart line)).fixes = [] :=
  LineResult.fixes_eq_nil h.plain

theorem Settled.warnings_eq (h : c.Settled line) : (c.classify (atStart line)).warnings = [] := by
  refine List.filter_eq_nil_iff.mpr fun d hd => ?_
  have herror := (h.plain d hd).1
  simp only [Diagnostic.isError, beq_iff_eq] at herror
  simp [Diagnostic.isWarning, herror]

/-- A line with its text commented out is settled, and has no further errors. -/
theorem Leftover.settled {before old after : Text} {keyword : Keyword}
    {problem : Diagnostic Span} (h : c.Leftover line before old after keyword problem)
    (hline : Unbroken line) :
    c.Settled (before ++ (' ' :: '#' :: old) ++ after) ∧
      (c.classify (atStart (before ++ (' ' :: '#' :: old) ++ after))).errors.length ≤
        (c.classify (atStart line)).errors.length := by
  obtain ⟨span, hdiagnostics⟩ := h.diagnostics_fixed
  refine ⟨⟨h.unbroken_fixed hline, h.edits_fixed, ?_⟩, ?_⟩
  · rw [hdiagnostics]
    split
    · nofun
    · exact List.forall_mem_singleton.mpr ⟨rfl, rfl⟩
  · rw [LineResult.errors, LineResult.errors, hdiagnostics, h.diagnostics_eq]
    -- the comment is an error at most where the leftover text was one
    cases hallows : keyword.allowsComment with
    | true => exact Nat.zero_le _
    | false =>
      rw [if_neg (by decide), List.filter_cons_of_pos (h.isError_of_not hallows)]
      exact Nat.le_refl 1

/-- A line has at most one fix. -/
theorem length_fixes_le (c : Classifier) {line : Text} (hline : Unbroken line) :
    (c.classify (atStart line)).fixes.length ≤ 1 := by
  -- The edited line has the same fixes as the line.
  obtain ⟨edited, hedited⟩ := c.exists_edited hline
  rw [← hedited.fixes_eq]
  rcases c.leftover_cases edited hedited.edits_eq with
    hplain | ⟨before, old, after, keyword, problem, h⟩
  · rw [LineResult.fixes_eq_nil hplain]
    exact Nat.zero_le _
  · rw [h.fixes_eq]
    exact Nat.le_refl 1

/-- A line that is not edited, with its fixes made. -/
structure Fixed (c : Classifier) (line fixed : Text) : Prop where
  /-- The fixes can be made. -/
  editLine_eq : ∀ n, Document.editLine line
    ((c.classify (atStart line)).fixes.map fun fix => (fix.map (Range.on n)).edit) = (.ok (), fixed)
  /-- The fixed line is settled. -/
  settled : c.Settled fixed
  /-- It has no further errors. -/
  errors_le : (c.classify (atStart fixed)).errors.length ≤ (c.classify (atStart line)).errors.length
  /-- It is empty only if the line is. -/
  ne_nil : line ≠ [] → fixed ≠ []

/-- A settled line has no fixes to be made. -/
theorem Settled.fixed_self (h : c.Settled line) : c.Fixed line line where
  editLine_eq n := by
    rw [h.fixes_eq]
    rfl
  settled := h
  errors_le := Nat.le_refl _
  ne_nil := id

theorem Leftover.fixed {before old after : Text} {keyword : Keyword} {problem : Diagnostic Span}
    (h : c.Leftover line before old after keyword problem) (hline : Unbroken line) :
    c.Fixed line (before ++ (' ' :: '#' :: old) ++ after) where
  editLine_eq := h.editLine_fixed
  settled := (h.settled hline).1
  errors_le := (h.settled hline).2
  ne_nil := by simp

/-- Every line that is not edited can be fixed. -/
theorem exists_fixed (c : Classifier) (hline : Unbroken line)
    (hedits : (c.classify (atStart line)).edits = []) : ∃ fixed, c.Fixed line fixed := by
  rcases c.leftover_cases line hedits with hplain | ⟨before, old, after, keyword, problem, h⟩
  · exact ⟨line, (Settled.mk hline hedits hplain).fixed_self⟩
  · exact ⟨_, h.fixed hline⟩

/-- The results of consecutive lines, the first of them numbered `n`. -/
def classifyFrom (c : Classifier) (file : Option String) (n : Nat) :
    List Text → List (LineResult Range)
  | [] => []
  | line :: lines =>
    (c.classify (atStart line)).place ⟨file, n⟩ :: classifyFrom c file (n + 1) lines

/-- The results of edited lines are those of the lines, with the edits made. -/
theorem classifyFrom_edited (file : Option String) (n : Nat) {lines edited : List Text}
    (h : List.Forall₂ c.Edited lines edited) :
    c.classifyFrom file n edited =
      (c.classifyFrom file n lines).map LineResult.withoutEdits := by
  induction h generalizing n with
  | nil => rfl
  | cons hline _ ih =>
    rw [classifyFrom, classifyFrom, ih, hline.classify_eq]
    rfl

/-- The results of lines are compared line by line. -/
theorem forall₂_classifyFrom {R : LineResult Range → LineResult Range → Prop}
    (file : Option String) (n : Nat) {lines lines' : List Text}
    (h : List.Forall₂ (fun line line' => ∀ location, R ((c.classify (atStart line)).place location)
      ((c.classify (atStart line')).place location)) lines lines') :
    List.Forall₂ R (c.classifyFrom file n lines) (c.classifyFrom file n lines') := by
  induction h generalizing n with
  | nil => exact .nil
  | cons hline _ ih => exact .cons (hline _) (ih (n + 1))

/-- A result belongs to a line. -/
theorem exists_of_mem_classifyFrom {file : Option String} {n : Nat} {lines : List Text}
    {result : LineResult Range} (h : result ∈ c.classifyFrom file n lines) :
    ∃ line ∈ lines, ∃ location, result = (c.classify (atStart line)).place location := by
  induction lines generalizing n with
  | nil => cases h
  | cons line lines ih =>
    rcases List.mem_cons.mp h with rfl | h
    · exact ⟨line, List.mem_cons_self .., _, rfl⟩
    · obtain ⟨other, hother, hresult⟩ := ih h
      exact ⟨other, List.mem_cons_of_mem _ hother, hresult⟩

end Classifier

/-! ## Documents -/

namespace Document

variable {c : Classifier}

/-- Linting makes the edits of every line. -/
theorem lintFrom_eq (c : Classifier) (file : Option String) (n : Nat) {lines : List Text}
    (h : ∀ line ∈ lines, Unbroken line) :
    ∃ edited, lintFrom c file n lines = (.ok (c.classifyFrom file n lines), edited) ∧
      List.Forall₂ c.Edited lines edited ∧
      ∀ line ∈ edited, Unbroken line ∧ (c.classify (atStart line)).edits = [] := by
  -- Induction on the lines, each of them edited on its own.
  induction lines generalizing n with
  | nil => exact ⟨[], rfl, .nil, nofun⟩
  | cons line lines ih =>
    rw [List.forall_mem_cons] at h
    obtain ⟨rest, hrest, hforall, hready⟩ := ih (n + 1) h.2
    obtain ⟨edited, hedited⟩ := c.exists_edited h.1
    refine ⟨edited :: rest, ?_, .cons hedited hforall, List.forall_mem_cons.mpr
      ⟨⟨hedited.unbroken, by rw [hedited.classify_eq]; rfl⟩, hready⟩⟩
    rw [lintFrom, c.parse_of_unbroken ⟨file, n⟩ h.1]
    dsimp only
    rw [LineResult.edits_place, hedited.editLine_eq n, hrest]
    rfl

/-- Linting lines that are not edited leaves them as they are. -/
theorem lintFrom_of_edits_eq_nil (file : Option String) (n : Nat) {lines : List Text}
    (h : ∀ line ∈ lines, Unbroken line ∧ (c.classify (atStart line)).edits = []) :
    lintFrom c file n lines = (.ok (c.classifyFrom file n lines), lines) := by
  induction lines generalizing n with
  | nil => rfl
  | cons line lines ih =>
    rw [List.forall_mem_cons] at h
    rw [lintFrom, c.parse_of_unbroken ⟨file, n⟩ h.1.1]
    dsimp only
    rw [LineResult.edits_place, h.1.2, List.map_nil, editLine, ih (n + 1) h.2]
    rfl

/-- A single edit that can be made is made. -/
theorem applyAll_singleton {document edited : Document} {edit : TextEdit Range}
    (h : document.applyEdit edit = .ok edited) :
    applyAll none document (rightToLeft [edit]) = (.ok 1, edited) := by
  rw [rightToLeft, List.mergeSort_singleton, applyAll, h]
  rfl

/-- The fixes of a line are made where the line stands in the document. -/
theorem applyAll_line {line : Text} (hline : Unbroken line)
    (hedits : (c.classify (atStart line)).edits = []) (file : Option String) (done rest : List Text)
    (document : Document) :
    ∃ fixed, c.Fixed line fixed ∧
      applyAll none { document with lines := done ++ line :: rest }
          (rightToLeft
            (((c.classify (atStart line)).place ⟨file, done.length⟩).fixes.map Fix.edit)) =
        (.ok (c.classify (atStart line)).fixes.length,
          { document with lines := done ++ fixed :: rest }) := by
  rcases c.leftover_cases line hedits with hplain | ⟨before, old, after, keyword, problem, h⟩
  · have hsettled : c.Settled line := ⟨hline, hedits, hplain⟩
    refine ⟨line, hsettled.fixed_self, ?_⟩
    rw [LineResult.fixes_place, hsettled.fixes_eq, List.map_nil, List.map_nil, rightToLeft,
      List.mergeSort_nil]
    rfl
  · refine ⟨_, h.fixed hline, ?_⟩
    have hedit := applyEdit_line document done rest before old (' ' :: '#' :: old) after
    rw [← h.line_eq] at hedit
    rw [LineResult.fixes_place, h.fixes_eq]
    exact applyAll_singleton hedit

/-- The fixes of consecutive lines are made, each line on its own. -/
theorem applyFixes_fixed (file : Option String) (document : Document) {lines : List Text}
    (hlines : ∀ line ∈ lines, Unbroken line ∧ (c.classify (atStart line)).edits = [])
    (done : List Text) :
    ∃ fixed, List.Forall₂ c.Fixed lines fixed ∧
      applyFixes { document with lines := done ++ lines }
          ((c.classifyFrom file done.length lines).map fun r => r.fixes.map Fix.edit) =
        (.ok ((c.classifyFrom file done.length lines).flatMap LineResult.fixes).length,
          { document with lines := done ++ fixed }) := by
  -- Induction on the lines that are left, those in `done` being fixed already.
  induction lines generalizing done with
  | nil => exact ⟨[], .nil, rfl⟩
  | cons line lines ih =>
    rw [List.forall_mem_cons] at hlines
    obtain ⟨fixed, hfixed, hfirst⟩ :=
      applyAll_line hlines.1.1 hlines.1.2 file done lines document
    obtain ⟨rest, hrest, hmore⟩ := ih hlines.2 (done ++ [fixed])
    refine ⟨fixed :: rest, .cons hfixed hrest, ?_⟩
    rw [Classifier.classifyFrom, List.map_cons, applyFixes, hfirst]
    rw [List.length_append, List.length_singleton, List.append_assoc, List.append_assoc,
      List.singleton_append, List.singleton_append] at hmore
    dsimp only
    rw [hmore, List.flatMap_cons, List.length_append, LineResult.fixes_place, List.length_map]
    rfl

theorem settled_of_fixed {lines fixed : List Text} (h : List.Forall₂ c.Fixed lines fixed) :
    ∀ line ∈ fixed, c.Settled line := by
  induction h with
  | nil => nofun
  | cons hline _ ih => exact List.forall_mem_cons.mpr ⟨hline.settled, ih⟩

/-- The fixes of consecutive lines leave all lines settled, without further errors. -/
theorem applyFixes_lines (file : Option String) (document : Document) {lines : List Text}
    (hlines : ∀ line ∈ lines, Unbroken line ∧ (c.classify (atStart line)).edits = [])
    (done : List Text) :
    ∃ fixed, (∀ line ∈ fixed, c.Settled line) ∧
      List.Forall₂ (fun line fixed => (c.classify (atStart fixed)).errors.length ≤
        (c.classify (atStart line)).errors.length) lines fixed ∧
      applyFixes { document with lines := done ++ lines }
          ((c.classifyFrom file done.length lines).map fun r => r.fixes.map Fix.edit) =
        (.ok ((c.classifyFrom file done.length lines).flatMap LineResult.fixes).length,
          { document with lines := done ++ fixed }) := by
  obtain ⟨fixed, hfixed, happly⟩ := applyFixes_fixed file document hlines done
  exact ⟨fixed, settled_of_fixed hfixed, hfixed.imp fun _ _ h => h.errors_le, happly⟩

/-- Nothing is done without fixes. -/
theorem applyFixes_nil (document : Document) {batches : List (List (TextEdit Range))}
    (h : ∀ batch ∈ batches, batch = []) : document.applyFixes batches = (.ok 0, document) := by
  induction batches with
  | nil => rfl
  | cons batch batches ih =>
    rw [List.forall_mem_cons] at h
    rw [applyFixes, h.1, rightToLeft, List.mergeSort_nil, applyAll]
    dsimp only
    rw [ih h.2]
    rfl

/-- After one round of linting and fixing, a second one finds no more than the first, and changes
nothing. -/
theorem lint_applyFixes (c : Classifier) (file : Option String) (document : Document)
    (hlines : ∀ line ∈ document.lines, ∀ x ∈ line, breaksLine x = false) :
    ∃ results linted fixed again,
      document.lint c file = (.ok results, linted) ∧
      (∀ result ∈ results, result.fixes.length ≤ 1) ∧
      linted.applyFixes (results.map fun result => result.fixes.map Fix.edit) =
        (.ok ((results.flatMap LineResult.diagnostics).countP fun d => d.fix.isSome), fixed) ∧
      fixed.lint c file = (.ok again, fixed) ∧
      (∀ result ∈ again, result.edits = [] ∧ result.fixes = [] ∧ result.warnings = []) ∧
      List.Forall₂ (fun before after => after.errors.length ≤ before.errors.length)
        results again ∧
      fixed.applyFixes (again.map fun result => result.fixes.map Fix.edit) = (.ok 0, fixed) := by
  obtain ⟨edited, hlint, hedited, hready⟩ := lintFrom_eq c file 0 hlines
  obtain ⟨fixed, hsettled, herrors, hfixes⟩ := applyFixes_lines file document hready []
  -- All lines are settled after the first round.
  have hagain : ∀ result ∈ c.classifyFrom file 0 fixed,
      result.edits = [] ∧ result.fixes = [] ∧ result.warnings = [] := by
    intro result hresult
    obtain ⟨line, hline, location, rfl⟩ := exists_of_mem_classifyFrom hresult
    have h := hsettled line hline
    simp [h.edits_eq, h.fixes_eq, h.warnings_eq]
  refine ⟨c.classifyFrom file 0 document.lines, { document with lines := edited },
    { document with lines := fixed }, c.classifyFrom file 0 fixed, ?_, ?_, ?_, ?_, hagain, ?_, ?_⟩
  · rw [lint, hlint]
  · intro result hresult
    obtain ⟨line, hline, location, rfl⟩ := exists_of_mem_classifyFrom hresult
    rw [LineResult.fixes_place, List.length_map]
    exact c.length_fixes_le (hlines line hline)
  · rw [List.length_nil, classifyFrom_edited file 0 hedited, List.map_map, List.flatMap_map]
      at hfixes
    rw [← LineResult.length_flatMap_fixes]
    exact hfixes
  · rw [lint, lintFrom_of_edits_eq_nil file 0 fun line hline =>
      ⟨(hsettled line hline).unbroken, (hsettled line hline).edits_eq⟩]
  · have h := forall₂_classifyFrom (R := fun before after =>
      after.errors.length ≤ before.errors.length) file 0
        (herrors.imp fun line fixed hle location => by simpa using hle)
    rw [classifyFrom_edited file 0 hedited, List.forall₂_map_left_iff] at h
    exact h
  · refine applyFixes_nil _ fun batch hbatch => ?_
    obtain ⟨result, hresult, rfl⟩ := List.mem_map.mp hbatch
    rw [(hagain result hresult).2.1, List.map_nil]

set_option maxRecDepth 4000 in
/-- A document with an edit, a warning and an error is settled after one round. -/
theorem lint_applyFixes_mixed :
    ∃ document : Document,
      document.lines = ["Show extra".toList, "SetTextColor #ff000a".toList,
        "ItemLevel 5 extra".toList] ∧
      (document.lint ⟨{}, true⟩ none).1.toOption.map
        (fun results => results.map fun result => result.fixes.length) = some [1, 0, 1] ∧
      ∃ results linted fixed again,
        document.lint ⟨{}, true⟩ none = (.ok results, linted) ∧
        (∀ result ∈ results, result.fixes.length ≤ 1) ∧
        linted.applyFixes (results.map fun result => result.fixes.map Fix.edit) =
          (.ok ((results.flatMap LineResult.diagnostics).countP fun d => d.fix.isSome), fixed) ∧
        fixed.lint ⟨{}, true⟩ none = (.ok again, fixed) ∧
        (∀ result ∈ again, result.edits = [] ∧ result.fixes = [] ∧ result.warnings = []) ∧
        List.Forall₂ (fun before after => after.errors.length ≤ before.errors.length)
          results again ∧
        fixed.applyFixes (again.map fun result => result.fixes.map Fix.edit) = (.ok 0, fixed) := by
  have hlines : ∀ line ∈ ["Show extra".toList, "SetTextColor #ff000a".toList,
      "ItemLevel 5 extra".toList], Unbroken line := by
    simp only [List.forall_mem_cons, unbroken_iff]
    exact ⟨by decide, by decide, by decide, nofun⟩
  exact ⟨⟨_, .lf, true⟩, rfl, by decide, lint_applyFixes ⟨{}, true⟩ none _ hlines⟩

end Document

end ItemFilter
