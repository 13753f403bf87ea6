import ItemFilter.Proofs.Mending

/-!
# Applying fixes twice

A fix knows the text it replaces, but not that it has been applied. What keeps the fixes of a linted
document from being applied once more is that their text is not found again at its place: the fix of
a line puts ` #` in front of some text, and the text is at its old place after that only if it
starts with these characters itself, or is a single space. Neither is so, as only text that is not
blank and no comment is ever commented out. So the first fix is refused, and nothing changes.

## Main definitions

* `TextEdit.RefusedWith`: an edit that does not fit the document

## Main results

* `Document.exists_refusedWith`: an edit is refused where its text is not found
* `Classifier.Leftover.slice?_fixed_ne`: text that was commented out is not found again
* `Classifier.Fixed.applyAll_again`: the fixes of a fixed line are refused
* `Document.applyFixes_again`: so are those of a fixed document
-/

namespace ItemFilter

open Text Classifier
open Cursor (atStart)

/-! ## Refused edits -/

/-- The errors with which an edit is refused: its range is no part of the document, or another text
than the expected one stands there. -/
def TextEdit.RefusedWith (edit : TextEdit Range) (e : DocumentError) : Prop :=
  e = .outOfRange edit.range ∨
    ∃ found, found ≠ edit.oldText ∧ e = .staleEdit edit.range.line edit.oldText found

namespace Document

/-- An edit is refused where its text is not found. -/
theorem exists_refusedWith (document : Document) (edit : TextEdit Range) {line : Text}
    (hline : document.lines[edit.range.line]? = some line)
    (hne : slice? edit.range.start edit.range.stop line ≠ some edit.oldText) :
    ∃ e, edit.RefusedWith e ∧ document.applyEdit edit = .error e := by
  cases hslice : slice? edit.range.start edit.range.stop line with
  | none =>
    refine ⟨.outOfRange edit.range, Or.inl rfl, ?_⟩
    simp [applyEdit, textIn, line?, hline, hslice, bind, Except.bind]
  | some found =>
    have hfound : found ≠ edit.oldText := fun h => hne (by rw [hslice, h])
    refine ⟨.staleEdit edit.range.line edit.oldText found, Or.inr ⟨found, hfound, rfl⟩, ?_⟩
    simp [applyEdit, textIn, line?, hline, hslice, hfound, bind, Except.bind, throw, throwThe,
      MonadExceptOf.throw]

/-- A single edit that is refused ends the run, and leaves the document as it is. -/
theorem applyAll_singleton_of_error {document : Document} {edit : TextEdit Range}
    {e : DocumentError} (h : document.applyEdit edit = .error e) :
    applyAll none document (rightToLeft [edit]) = (.error e, document) := by
  rw [rightToLeft, List.mergeSort_singleton, applyAll, h]
  rfl

end Document

/-! ## Lines -/

namespace Classifier

variable {c : Classifier}

/-- Text that was commented out is not found again at its place. -/
theorem Leftover.slice?_fixed_ne {line before old after : Text} {keyword : Keyword}
    {problem : Diagnostic Span} (h : c.Leftover line before old after keyword problem) :
    slice? (spanOf before old).start (spanOf before old).stop
      (before ++ (' ' :: '#' :: old) ++ after) ≠ some old := by
  intro hslice
  obtain ⟨front, back, hsplit, hfront, -⟩ := slice?_eq_some_iff.mp hslice
  -- The text would have to stand where the comment sign was put.
  have hfound : ' ' :: '#' :: (old ++ after) = old ++ back := by
    have hfirst : splitAt? (byteLength before) (before ++ (' ' :: '#' :: old) ++ after) =
        some (before, ' ' :: '#' :: (old ++ after)) :=
      splitAt?_eq_some_iff.mpr ⟨by simp, rfl⟩
    have hsecond : splitAt? (byteLength before) (before ++ (' ' :: '#' :: old) ++ after) =
        some (front, old ++ back) :=
      splitAt?_eq_some_iff.mpr ⟨hsplit, hfront⟩
    exact congrArg Prod.snd (Option.some.inj (hfirst.symm.trans hsecond))
  have hblank := h.not_blank
  have hcomment := h.not_comment
  match old, hfound with
  | [], _ => cases hblank
  | [x], hfound =>
    obtain ⟨rfl, -⟩ := List.cons.inj hfound
    cases hblank
  | x :: y :: rest, hfound =>
    obtain ⟨rfl, hfound⟩ := List.cons.inj hfound
    obtain ⟨rfl, -⟩ := List.cons.inj hfound
    exact hcomment rfl

/-- The fixes of a line are refused where they have been made. -/
theorem Fixed.applyAll_again {line fixed : Text} (h : c.Fixed line fixed)
    (hedits : (c.classify (atStart line)).edits = [])
    (hfixes : (c.classify (atStart line)).fixes ≠ []) (file : Option String)
    (done rest : List Text) (document : Document) :
    ∃ fix ∈ ((c.classify (atStart line)).place ⟨file, done.length⟩).fixes, ∃ e,
      fix.edit.RefusedWith e ∧
      Document.applyAll none { document with lines := done ++ fixed :: rest }
          (Document.rightToLeft
            (((c.classify (atStart line)).place ⟨file, done.length⟩).fixes.map Fix.edit)) =
        (.error e, { document with lines := done ++ fixed :: rest }) := by
  rcases c.leftover_cases line hedits with hplain | ⟨before, old, after, keyword, problem, hleft⟩
  · exact absurd (LineResult.fixes_eq_nil hplain) hfixes
  · -- The line has one fix, so it is known what the fixed line is.
    have hfixed : fixed = before ++ (' ' :: '#' :: old) ++ after := by
      have hsame := (h.editLine_eq 0).symm.trans (hleft.editLine_fixed 0)
      exact congrArg Prod.snd hsame
    rw [LineResult.fixes_place, hleft.fixes_eq]
    refine ⟨_, List.mem_singleton_self _, ?_⟩
    have hline : (done ++ fixed :: rest)[done.length]? = some fixed := by simp
    have hne := hleft.slice?_fixed_ne
    rw [← hfixed] at hne
    obtain ⟨e, hrefused, herror⟩ := Document.exists_refusedWith
      { document with lines := done ++ fixed :: rest }
      ⟨Range.on done.length (spanOf before old), old, ' ' :: '#' :: old⟩ hline hne
    exact ⟨e, hrefused, Document.applyAll_singleton_of_error herror⟩

end Classifier

/-! ## Documents -/

namespace Document

variable {c : Classifier}

/-- The fixes of consecutive lines are refused where they have been made, if there are any. -/
theorem applyFixes_lines_again (file : Option String) (document : Document)
    {lines fixed : List Text} (hfixed : List.Forall₂ c.Fixed lines fixed)
    (hedits : ∀ line ∈ lines, (c.classify (atStart line)).edits = [])
    (hfixes : ∃ line ∈ lines, (c.classify (atStart line)).fixes ≠ []) (done : List Text) :
    ∃ result ∈ c.classifyFrom file done.length lines, ∃ fix ∈ result.fixes, ∃ e,
      fix.edit.RefusedWith e ∧
      applyFixes { document with lines := done ++ fixed }
          ((c.classifyFrom file done.length lines).map fun r => r.fixes.map Fix.edit) =
        (.error e, { document with lines := done ++ fixed }) := by
  -- Induction on the lines that are left, those in `done` having no fixes.
  induction hfixed generalizing done with
  | nil => simp at hfixes
  | @cons line fixedLine lines fixed hline hrest ih =>
    rw [List.forall_mem_cons] at hedits
    rw [classifyFrom, List.map_cons, applyFixes]
    by_cases hnone : (c.classify (atStart line)).fixes = []
    · have hmore : ∃ line ∈ lines, (c.classify (atStart line)).fixes ≠ [] := by
        simpa [hnone] using hfixes
      obtain ⟨result, hresult, fix, hfix, e, hrefused, hrun⟩ :=
        ih hedits.2 hmore (done ++ [fixedLine])
      rw [List.length_append, List.length_singleton] at hresult hrun
      rw [List.append_assoc, List.singleton_append] at hrun
      refine ⟨result, List.mem_cons_of_mem _ hresult, fix, hfix, e, hrefused, ?_⟩
      rw [LineResult.fixes_place, hnone, List.map_nil, List.map_nil, rightToLeft,
        List.mergeSort_nil, applyAll]
      dsimp only
      rw [hrun]
      rfl
    · obtain ⟨fix, hfix, e, hrefused, hrun⟩ :=
        hline.applyAll_again hedits.1 hnone file done fixed document
      refine ⟨_, List.mem_cons_self .., fix, hfix, e, hrefused, ?_⟩
      rw [hrun]

/-- The fixes of a linted document cannot be applied twice: the second time the first of them is
refused, and the document stays as it is. -/
theorem applyFixes_again {c : Classifier} {file : Option String}
    {document linted fixed : Document} {results : List (LineResult Range)} {count : Nat}
    (hlint : document.lint c file = (.ok results, linted))
    (hfixes : ∃ result ∈ results, result.fixes ≠ [])
    (happly : linted.applyFixes (results.map fun result => result.fixes.map Fix.edit) =
      (.ok count, fixed)) :
    ∃ result ∈ results, ∃ fix ∈ result.fixes, ∃ e, fix.edit.RefusedWith e ∧
      fixed.applyFixes (results.map fun result => result.fixes.map Fix.edit) =
        (.error e, fixed) := by
  obtain ⟨edited, hlint', hedited, hready⟩ :=
    lintFrom_eq c file 0 (unbroken_of_lint (congrArg Prod.fst hlint))
  rw [lint, hlint'] at hlint
  obtain ⟨hresults, rfl⟩ := Prod.mk.inj hlint
  obtain rfl := Except.ok.inj hresults
  obtain ⟨lines, hfixed, happly'⟩ := applyFixes_fixed file document hready []
  -- The edited lines have the fixes of the lines.
  have hbatches : ((c.classifyFrom file 0 edited).map fun result => result.fixes.map Fix.edit) =
      (c.classifyFrom file 0 document.lines).map fun result => result.fixes.map Fix.edit := by
    rw [classifyFrom_edited file 0 hedited, List.map_map]
    rfl
  rw [List.length_nil, List.nil_append, List.nil_append, hbatches, happly] at happly'
  obtain rfl : fixed = { document with lines } := congrArg Prod.snd happly'
  have hsome : ∃ line ∈ edited, (c.classify (atStart line)).fixes ≠ [] := by
    obtain ⟨result, hresult, hne⟩ := hfixes
    have hmem := List.mem_map_of_mem (f := LineResult.withoutEdits) hresult
    rw [← classifyFrom_edited file 0 hedited] at hmem
    obtain ⟨line, hline, location, hplace⟩ := exists_of_mem_classifyFrom hmem
    refine ⟨line, hline, fun hnone => hne ?_⟩
    have hsame := congrArg LineResult.fixes hplace
    rw [LineResult.fixes_place, hnone] at hsame
    exact hsame
  obtain ⟨result, hresult, fix, hfix, e, hrefused, hrun⟩ :=
    applyFixes_lines_again file document hfixed (fun line hline => (hready line hline).2) hsome []
  rw [List.length_nil, classifyFrom_edited file 0 hedited] at hresult
  obtain ⟨original, horiginal, rfl⟩ := List.mem_map.mp hresult
  rw [List.length_nil, List.nil_append, hbatches] at hrun
  exact ⟨original, horiginal, fix, hfix, e, hrefused, hrun⟩

/-- Behind a wide space the text is not even cut where a character ends. -/
theorem applyFixes_again_wide :
    ∃ (document linted fixed : Document) (results : List (LineResult Range)),
      document.lines = ["Hide".toList, "Show\u3000x".toList] ∧
      document.lint ⟨{}, true⟩ none = (.ok results, linted) ∧
      (∃ result ∈ results, result.fixes ≠ []) ∧
      linted.applyFixes (results.map fun result => result.fixes.map Fix.edit) = (.ok 1, fixed) ∧
      ∃ result ∈ results, ∃ fix ∈ result.fixes, ∃ e, fix.edit.RefusedWith e ∧
        fixed.applyFixes (results.map fun result => result.fixes.map Fix.edit) =
          (.error e, fixed) := by
  obtain ⟨results, hlint, hfixes, hedits⟩ :
      ∃ results, lint ⟨{}, true⟩ none ⟨["Hide".toList, "Show\u3000x".toList], .lf, true⟩ =
          (.ok results, ⟨["Hide".toList, "Show\u3000x".toList], .lf, true⟩) ∧
        (∃ result ∈ results, result.fixes ≠ []) ∧
        (results.map fun result => result.fixes.map Fix.edit) =
          [[], [⟨⟨1, 4, 8⟩, "\u3000x".toList, " #\u3000x".toList⟩]] :=
    ⟨_, rfl, ⟨_, List.mem_cons_of_mem _ (List.mem_cons_self ..), by decide⟩, rfl⟩
  have happly : applyFixes ⟨["Hide".toList, "Show\u3000x".toList], .lf, true⟩
      (results.map fun result => result.fixes.map Fix.edit) =
        (.ok 1, ⟨["Hide".toList, "Show #\u3000x".toList], .lf, true⟩) := by
    simp only [hedits, applyFixes, rightToLeft, List.mergeSort_nil, List.mergeSort_singleton]
    rfl
  exact ⟨_, _, _, results, rfl, hlint, hfixes, happly, applyFixes_again hlint hfixes happly⟩

end Document

end ItemFilter
