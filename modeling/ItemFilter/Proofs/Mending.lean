import ItemFilter.Command.Check
import ItemFilter.Proofs.Contents
import ItemFilter.Proofs.Linewise

/-!
# Mending documents

A document that is linted, fixed and linted again has all of its lines mended: the edits of each are
made, and after them its fixes. Nothing is left to be edited or fixed in a mended line, and a line
is mended into itself only if there was nothing to begin with.

## Main definitions

* `Classifier.Mended`: a line with its edits and its fixes made
* `Classifier.NeedsMending`: a line that is edited or fixed

## Main results

* `Classifier.fixDocument_eq`: a document is fixed by mending its lines
* `Classifier.fixDocument_of_settled`: a document of settled lines stays as it is
* `Classifier.parse_mended`: a text with its lines mended is read as such
-/

namespace ItemFilter

open Text
open Cursor (atStart breaksLine)

/-! ## Lines -/

/-- There is no line feed in a line. -/
theorem Text.lf_notMem_of_mem_linesAfter {front text line : Text} (hfront : '\n' ∉ front)
    (h : line ∈ linesAfter front text) : '\n' ∉ line := by
  induction text generalizing front with
  | nil =>
    rw [linesAfter] at h
    split at h
    · cases h
    · obtain rfl := List.mem_singleton.mp h
      simpa using hfront
  | cons c text ih =>
    rw [linesAfter] at h
    split at h
    · rcases List.mem_cons.mp h with rfl | h
      · rw [List.mem_reverse]
        unfold dropReturn
        split
        · exact fun hmem => hfront (List.mem_cons_of_mem _ hmem)
        · exact hfront
      · exact ih (by simp) h
    · next hc =>
      refine ih ?_ h
      rw [List.mem_cons, not_or]
      exact ⟨fun heq => hc heq.symm, hfront⟩

/-- The line breaks in the lines of a text are stray carriage returns. -/
theorem Text.unbroken_iff_of_mem_lines {text line : Text} (h : line ∈ lines text) :
    Unbroken line ↔ '\r' ∉ line := by
  refine ⟨Unbroken.cr_notMem, fun hcr x hx => ?_⟩
  have hlf := lf_notMem_of_mem_linesAfter (by simp) h
  have hne : x ≠ '\r' ∧ x ≠ '\n' :=
    ⟨fun heq => hcr (heq ▸ hx), fun heq => hlf (heq ▸ hx)⟩
  simp [breaksLine, hne]

namespace Classifier

variable {c : Classifier} {line edited fixed new : Text}

/-- A line that is edited is edited into a line with characters. -/
theorem Edited.ne_nil (h : c.Edited line edited) (hne : line ≠ []) : edited ≠ [] := by
  by_cases hedits : (c.classify (atStart line)).edits = []
  · have heq := h.editLine_eq 0
    rw [hedits] at heq
    obtain rfl : line = edited := congrArg Prod.snd heq
    exact hne
  · rintro rfl
    -- A line with edits is a rule, and an empty line is none.
    have hkind := congrArg LineResult.kind h.classify_eq
    obtain ⟨gap, keyword, rest, category, op, p, after, hgap, hb, rfl, hrule, -⟩ :=
      c.exists_hexLine_of_classify hedits
    rw [c.classify_rule hrule rfl hgap hb] at hkind
    cases hkind

theorem Fixed.eq_of_fixes (h : c.Fixed line fixed)
    (hnone : (c.classify (atStart line)).fixes = []) : fixed = line := by
  have heq := h.editLine_eq 0
  rw [hnone] at heq
  exact (congrArg Prod.snd heq).symm

/-- A line that is edited or fixed. -/
def NeedsMending (c : Classifier) (line : Text) : Prop :=
  (c.classify (atStart line)).edits ≠ [] ∨ (c.classify (atStart line)).fixes ≠ []

theorem Settled.not_needsMending (h : c.Settled line) : ¬ c.NeedsMending line := by
  rw [NeedsMending, h.edits_eq, h.fixes_eq]
  simp

/-- A line with its edits made, and after them its fixes. -/
structure Mended (c : Classifier) (line new : Text) : Prop where
  /-- The line has no line breaks. -/
  unbroken : Unbroken line
  /-- The edits and the fixes can be made. -/
  editLine_eq : ∀ n, Document.editLine line
    ((c.classify (atStart line)).edits.map (TextEdit.map (Range.on n)) ++
      (c.classify (atStart line)).fixes.map fun fix => (fix.map (Range.on n)).edit) =
        (.ok (), new)
  /-- Nothing is left to be edited or fixed. -/
  settled : c.Settled new
  /-- It is empty only if the line is. -/
  ne_nil : line ≠ [] → new ≠ []

theorem Edited.mended_of_fixed (h : c.Edited line edited) (hline : Unbroken line)
    (h' : c.Fixed edited fixed) : c.Mended line fixed where
  unbroken := hline
  editLine_eq n := by
    have hfixes : (c.classify (atStart edited)).fixes = (c.classify (atStart line)).fixes := by
      rw [h.classify_eq]
      rfl
    rw [Document.editLine_append_of_ok (h.editLine_eq n), ← hfixes]
    exact h'.editLine_eq n
  settled := h'.settled
  ne_nil hne := h'.ne_nil (h.ne_nil hne)

/-- A line is mended into itself only if there was nothing to be mended. -/
theorem Mended.eq_iff (h : c.Mended line new) : new = line ↔ ¬ c.NeedsMending line := by
  constructor
  · rintro rfl
    exact h.settled.not_needsMending
  · intro hnone
    rw [NeedsMending, not_or, not_not, not_not] at hnone
    have heq := h.editLine_eq 0
    rw [hnone.1, hnone.2] at heq
    exact (congrArg Prod.snd heq).symm

/-- There is one way to mend a line. -/
theorem Mended.eq {other : Text} (h : c.Mended line new) (h' : c.Mended line other) : new = other :=
  congrArg Prod.snd ((h.editLine_eq 0).symm.trans (h'.editLine_eq 0))

theorem Settled.mended_self (h : c.Settled line) : c.Mended line line :=
  (edited_self c h.unbroken h.edits_eq).mended_of_fixed h.unbroken h.fixed_self

/-- A line can be mended, and has no further errors then. -/
theorem exists_mended (c : Classifier) (hline : Unbroken line) :
    ∃ new, c.Mended line new ∧
      (c.classify (atStart new)).errors.length ≤ (c.classify (atStart line)).errors.length := by
  obtain ⟨edited, hedited⟩ := c.exists_edited hline
  obtain ⟨fixed, hfixed⟩ := c.exists_fixed hedited.unbroken hedited.edits_eq
  have herrors := hfixed.errors_le
  rw [hedited.classify_eq] at herrors
  exact ⟨fixed, hedited.mended_of_fixed hline hfixed, herrors⟩

variable {lines mended : List Text}

theorem forall₂_mended {edited : List Text} (hedited : List.Forall₂ c.Edited lines edited)
    (hlines : ∀ line ∈ lines, Unbroken line) (hfixed : List.Forall₂ c.Fixed edited mended) :
    List.Forall₂ c.Mended lines mended := by
  induction hedited generalizing mended with
  | nil =>
    cases hfixed
    exact .nil
  | cons hline _ ih =>
    cases hfixed with
    | cons hfirst hrest =>
      rw [List.forall_mem_cons] at hlines
      exact .cons (hline.mended_of_fixed hlines.1 hfirst) (ih hlines.2 hrest)

theorem unbroken_of_mended (h : List.Forall₂ c.Mended lines mended) :
    ∀ line ∈ lines, Unbroken line := by
  induction h with
  | nil => nofun
  | cons hline _ ih => exact List.forall_mem_cons.mpr ⟨hline.unbroken, ih⟩

theorem settled_of_mended (h : List.Forall₂ c.Mended lines mended) :
    ∀ line ∈ mended, c.Settled line := by
  induction h with
  | nil => nofun
  | cons hline _ ih => exact List.forall_mem_cons.mpr ⟨hline.settled, ih⟩

theorem mended_eq_iff (h : List.Forall₂ c.Mended lines mended) :
    mended = lines ↔ ∀ line ∈ lines, ¬ c.NeedsMending line := by
  induction h with
  | nil => simp
  | cons hline _ ih => rw [List.cons.injEq, hline.eq_iff, ih, List.forall_mem_cons]

theorem getLast?_mended (h : List.Forall₂ c.Mended lines mended)
    (hlast : lines.getLast? ≠ some []) : mended.getLast? ≠ some [] := by
  induction h with
  | nil => exact hlast
  | cons hline hrest ih =>
    cases hrest with
    | nil => simpa using hline.ne_nil (by simpa using hlast)
    | cons _ _ =>
      rw [List.getLast?_cons_cons] at hlast ⊢
      exact ih hlast

/-! ## Documents -/

/-- Lines without fixes are not changed by fixing them. -/
theorem fixed_eq (h : List.Forall₂ c.Fixed lines mended)
    (hnone : ∀ line ∈ lines, (c.classify (atStart line)).fixes = []) : mended = lines := by
  induction h with
  | nil => rfl
  | cons hline _ ih =>
    rw [List.forall_mem_cons] at hnone
    rw [hline.eq_of_fixes hnone.1, ih hnone.2]

/-- There are no fixes if none of the lines has one. -/
theorem flatMap_fixes_eq_nil_iff (c : Classifier) (file : Option String) (n : Nat)
    (lines : List Text) :
    (c.classifyFrom file n lines).flatMap LineResult.fixes = [] ↔
      ∀ line ∈ lines, (c.classify (atStart line)).fixes = [] := by
  induction lines generalizing n with
  | nil => simp [classifyFrom]
  | cons line lines ih =>
    rw [classifyFrom, List.flatMap_cons, List.append_eq_nil_iff, ih, List.forall_mem_cons,
      LineResult.fixes_place, List.map_eq_nil_iff]

/-- The results of settled lines have no edits. -/
theorem map_withoutEdits_classifyFrom (file : Option String) (n : Nat)
    (h : ∀ line ∈ lines, c.Settled line) :
    (c.classifyFrom file n lines).map LineResult.withoutEdits = c.classifyFrom file n lines := by
  induction lines generalizing n with
  | nil => rfl
  | cons line lines ih =>
    rw [List.forall_mem_cons] at h
    have hedits : ((c.classify (atStart line)).place ⟨file, n⟩).edits = [] := by
      rw [LineResult.edits_place, h.1.edits_eq, List.map_nil]
    rw [classifyFrom, List.map_cons, ih _ h.2, LineResult.withoutEdits, ← hedits]

/-- A document is linted again if there were fixes. -/
theorem fixDocument_of_ok {file : Option String} {document linted fixed : Document}
    {results : List (LineResult Range)} {count : Nat}
    (hlint : document.lint c file = (.ok results, linted))
    (hfixes : linted.applyFixes (results.map fun result => result.fixes.map Fix.edit) =
      (.ok count, fixed)) :
    c.fixDocument file document =
      if count = 0 then .ok ⟨results, count, fixed⟩
      else (fixed.lint c file).1.map fun again => ⟨again, count, (fixed.lint c file).2⟩ := by
  rw [fixDocument, hlint]
  simp only [bind, Except.bind, hfixes]
  split
  · rfl
  · cases (fixed.lint c file).1 <;> rfl

/-- A document is fixed by mending its lines. -/
theorem fixDocument_eq (c : Classifier) (file : Option String) (document : Document)
    (hlines : ∀ line ∈ document.lines, Unbroken line) :
    ∃ results mended, List.Forall₂ c.Mended document.lines mended ∧
      results.map LineResult.withoutEdits = c.classifyFrom file 0 mended ∧
      c.fixDocument file document =
        .ok ⟨results, ((c.classifyFrom file 0 document.lines).flatMap LineResult.fixes).length,
          { document with lines := mended }⟩ := by
  obtain ⟨edited, hlint, hedited, hready⟩ := Document.lintFrom_eq c file 0 hlines
  obtain ⟨mended, hfixed, happly⟩ := Document.applyFixes_fixed file document hready []
  have hmended := forall₂_mended hedited hlines hfixed
  have hclassify := classifyFrom_edited file 0 hedited
  have hcount : ((c.classifyFrom file 0 edited).flatMap LineResult.fixes).length =
      ((c.classifyFrom file 0 document.lines).flatMap LineResult.fixes).length := by
    rw [hclassify, List.flatMap_map]
    rfl
  rw [List.length_nil, List.nil_append, List.nil_append, hcount, hclassify, List.map_map] at happly
  have hlinted : document.lint c file =
      (.ok (c.classifyFrom file 0 document.lines), { document with lines := edited }) := by
    rw [Document.lint, hlint]
  by_cases hnone : (c.classifyFrom file 0 document.lines).flatMap LineResult.fixes = []
  · -- Without fixes, the document is only edited.
    refine ⟨c.classifyFrom file 0 document.lines, mended, hmended, ?_, ?_⟩
    · rw [← hclassify, fixed_eq hfixed]
      rw [← c.flatMap_fixes_eq_nil_iff file 0, ← List.length_eq_zero_iff, hcount, hnone]
      rfl
    · rw [fixDocument_of_ok hlinted happly, hnone]
      rfl
  · have hsettled := settled_of_mended hmended
    refine ⟨c.classifyFrom file 0 mended, mended, hmended,
      map_withoutEdits_classifyFrom file 0 hsettled, ?_⟩
    have hagain : ({ document with lines := mended } : Document).lint c file =
        (.ok (c.classifyFrom file 0 mended), { document with lines := mended }) := by
      rw [Document.lint, Document.lintFrom_of_edits_eq_nil file 0 fun line hline =>
        ⟨(hsettled line hline).unbroken, (hsettled line hline).edits_eq⟩]
    rw [fixDocument_of_ok hlinted happly,
      if_neg fun hzero => hnone (List.length_eq_zero_iff.mp hzero), hagain]
    rfl

/-- A document of settled lines stays as it is. -/
theorem fixDocument_of_settled (file : Option String) {document : Document}
    (h : ∀ line ∈ document.lines, c.Settled line) :
    c.fixDocument file document = .ok ⟨c.classifyFrom file 0 document.lines, 0, document⟩ := by
  have hlint : document.lint c file = (.ok (c.classifyFrom file 0 document.lines), document) := by
    rw [Document.lint, Document.lintFrom_of_edits_eq_nil file 0 fun line hline =>
      ⟨(h line hline).unbroken, (h line hline).edits_eq⟩]
  have hnone : ∀ batch ∈ (c.classifyFrom file 0 document.lines).map fun result =>
      result.fixes.map Fix.edit, batch = [] := by
    intro batch hbatch
    obtain ⟨result, hresult, rfl⟩ := List.mem_map.mp hbatch
    obtain ⟨line, hline, location, rfl⟩ := exists_of_mem_classifyFrom hresult
    rw [LineResult.fixes_place, (h line hline).fixes_eq]
    rfl
  rw [fixDocument_of_ok hlint (Document.applyFixes_nil document hnone), if_pos rfl]

/-- A document with a stray carriage return cannot be fixed. -/
theorem fixDocument_of_break (c : Classifier) (file : Option String) {document : Document}
    (h : ¬ ∀ line ∈ document.lines, Unbroken line) :
    ∃ position, c.fixDocument file document = .error (.scan (.lineBreak position)) := by
  obtain ⟨i, before, x, after, edited, hlint, -⟩ := Document.lint_of_break c file document h
  refine ⟨byteLength before, ?_⟩
  rw [fixDocument, hlint]
  rfl

/-! ## Texts -/

section

variable {text : Text} (h : List.Forall₂ c.Mended (Text.lines text) mended)
include h

theorem isProper_mended : ({ Document.parse text with lines := mended } : Document).IsProper := by
  have hproper := Document.isProper_parse text
  have hlength : (Text.lines text).length = mended.length := h.length_eq
  refine ⟨fun hended => ?_, fun hended => ?_, fun hended hle => ?_⟩
  · rw [← List.length_pos_iff, ← hlength, List.length_pos_iff]
    exact hproper.ne_nil hended
  · exact getLast?_mended h (hproper.last_ne hended)
  · exact hproper.ending_eq hended (hlength ▸ hle)

/-- A text with its lines mended is read as such: there are as many lines, with the ending of the
first one, and the last line is ended if it was. -/
theorem parse_mended :
    Document.parse ({ Document.parse text with lines := mended } : Document).contents =
      { Document.parse text with lines := mended } :=
  Document.parse_contents (isProper_mended h) fun line hline =>
    (settled_of_mended h line hline).unbroken

/-- A text is changed if and only if a line of it is edited or fixed. -/
theorem contents_mended_ne_iff :
    ({ Document.parse text with lines := mended } : Document).contents ≠
        (Document.parse text).contents ↔ ∃ line ∈ Text.lines text, c.NeedsMending line := by
  have hiff := Document.contents_inj (isProper_mended h)
    (fun line hline => (settled_of_mended h line hline).unbroken)
    (Document.isProper_parse text) (unbroken_of_mended h)
  have hlines : ({ Document.parse text with lines := mended } : Document) = Document.parse text ↔
      mended = Text.lines text :=
    ⟨congrArg Document.lines, by rintro rfl; rfl⟩
  rw [Ne, hiff, hlines, mended_eq_iff h]
  simp only [not_forall, not_not, exists_prop]

end

end Classifier

end ItemFilter
