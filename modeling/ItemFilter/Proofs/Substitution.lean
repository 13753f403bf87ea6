import Mathlib.Data.List.Pairwise
import ItemFilter.Document.Fixing
import ItemFilter.Proofs.Places

/-!
# The fixes of a line as a substitution

The fixes of a line are applied one after another, and each of them is checked against the line as
the ones before have left it. They all come to be made in the line as it was: whatever was changed
stands behind the first column of the last applied fix, and a fix that reaches beyond that column is
skipped. So the applied fixes are a substitution, all of whose texts are replaced at once.

## Main definitions

* `TextEdit.Overlaps`: edits that share a byte
* `Document.Substitutes`: a text with the text at some places replaced
* `Document.Applied`: a line with some fixes applied at its end

## Main results

* `Document.Applied.edit`: applying one more fix
* `Document.applyAll_substitutes`: a run over ordered fixes
* `Document.applyFixes_substitutes`: the fixes of a line are substituted
-/

namespace ItemFilter

open Text

/-- Whether two edits replace a byte in common. -/
def TextEdit.Overlaps (edit other : TextEdit Range) : Prop :=
  ∃ column, (edit.range.start ≤ column ∧ column < edit.range.stop) ∧
    other.range.start ≤ column ∧ column < other.range.stop

theorem TextEdit.Overlaps.symm {edit other : TextEdit Range} (h : edit.Overlaps other) :
    other.Overlaps edit := by
  obtain ⟨column, hedit, hother⟩ := h
  exact ⟨column, hother, hedit⟩

/-- Edits at the same column overlap, if both replace something. -/
theorem TextEdit.overlaps_of_start_eq {edit other : TextEdit Range}
    (hedit : edit.range.start < edit.range.stop) (hother : other.range.start < other.range.stop)
    (h : edit.range.start = other.range.start) : edit.Overlaps other :=
  ⟨edit.range.start, ⟨Nat.le_refl _, hedit⟩, h.ge, h ▸ hother⟩

/-- An edit that ends before another one starts does not overlap it. -/
theorem TextEdit.not_overlaps_of_le {edit other : TextEdit Range}
    (h : edit.range.stop ≤ other.range.start) : ¬ edit.Overlaps other := by
  rintro ⟨column, hedit, hother⟩
  omega

namespace Document

/-! ## Substitution -/

/-- Edits of the line numbered `n` that are made at once in what stands behind the text `before`:
where an edit stands its old text is replaced, and all other text is kept. The edits are listed from
left to right. -/
inductive Substitutes (n : Nat) : Text → Text → List (TextEdit Range) → Text → Prop
  /-- Behind the last edit all text is kept. -/
  | keep (before text : Text) : Substitutes n before text [] text
  /-- The text up to an edit is kept, and the old text of the edit is replaced. -/
  | replace {before text new : Text} {edits : List (TextEdit Range)} (kept : Text)
    (edit : TextEdit Range)
    (range_eq : edit.range = Range.on n (spanOf (before ++ kept) edit.oldText))
    (h : Substitutes n (before ++ kept ++ edit.oldText) text edits new) :
    Substitutes n before (kept ++ (edit.oldText ++ text)) (edit :: edits)
      (kept ++ (edit.newText ++ new))

namespace Substitutes

variable {n : Nat} {before text new : Text} {edits : List (TextEdit Range)}

/-- Text in front of the first edit may be kept as well. -/
theorem prepend (kept : Text) (h : Substitutes n (before ++ kept) text edits new) :
    Substitutes n before (kept ++ text) edits (kept ++ new) := by
  cases h with
  | keep => exact .keep before (kept ++ text)
  | replace more edit hrange h =>
    rw [List.append_assoc before] at h hrange
    have happend := Substitutes.replace (kept ++ more) edit hrange h
    rwa [List.append_assoc kept, List.append_assoc kept] at happend

/-- No edit starts in front of the text. -/
theorem le_start (h : Substitutes n before text edits new) :
    ∀ edit ∈ edits, byteLength before ≤ edit.range.start := by
  induction h with
  | keep => nofun
  | @replace before text new edits kept edit hrange h ih =>
    intro other hother
    rcases List.mem_cons.mp hother with rfl | hother
    · simp [hrange, Range.on, spanOf]
    · have hle := ih other hother
      simp only [byteLength_append] at hle
      omega

/-- Each edit ends before the next one starts. -/
theorem pairwise (h : Substitutes n before text edits new) :
    edits.Pairwise fun edit other => edit.range.stop ≤ other.range.start := by
  induction h with
  | keep => exact .nil
  | replace kept edit hrange h ih =>
    refine List.pairwise_cons.mpr ⟨?_, ih⟩
    rw [hrange]
    exact h.le_start

end Substitutes

/-! ## One fix -/

/-- A line whose last fixes were applied: `new` stands in the place of `after` now, and one of the
fixes starts where `before` ends, unless none was applied. -/
structure Applied (n : Nat) (before after new : Text) (applied : List (TextEdit Range)) :
    Prop where
  /-- The fixes were substituted. -/
  substitutes : Substitutes n before after applied new
  /-- The last applied fix starts where the unchanged text ends. -/
  exists_last : after ≠ [] → ∃ edit ∈ applied,
    edit.range.start = byteLength before ∧ byteLength before < edit.range.stop

namespace Applied

variable {n : Nat} {before after new : Text} {applied : List (TextEdit Range)}

/-- Nothing was applied yet. -/
theorem start (n : Nat) (line : Text) : Applied n line [] [] [] where
  substitutes := .keep line []
  exists_last h := absurd rfl h

/-- Another fix is applied to the unchanged text. -/
theorem edit {edit : TextEdit Range} {middle : Text}
    (h : Applied n (before ++ edit.oldText ++ middle) after new applied)
    (hrange : edit.range = Range.on n (spanOf before edit.oldText)) (hne : edit.oldText ≠ []) :
    Applied n before (edit.oldText ++ (middle ++ after)) (edit.newText ++ (middle ++ new))
      (edit :: applied) := by
  refine ⟨?_, fun _ => ⟨edit, List.mem_cons_self .., ?_, ?_⟩⟩
  · have hkept := h.substitutes.prepend middle
    have hnone : before = before ++ [] := (List.append_nil before).symm
    rw [hnone] at hkept hrange
    exact Substitutes.replace [] edit hrange hkept
  · rw [hrange]
    rfl
  · have hpos : byteLength edit.oldText ≠ 0 := by simpa using hne
    rw [hrange]
    simp only [Range.on, spanOf_stop]
    omega

/-- A fix that starts in the unchanged text and reaches beyond it overlaps an applied one. -/
theorem exists_overlaps (h : Applied n before after new applied) {edit : TextEdit Range}
    (hstart : edit.range.start ≤ byteLength before) (hstop : byteLength before < edit.range.stop)
    (hle : edit.range.stop ≤ byteLength (before ++ after)) :
    ∃ other ∈ applied, edit.Overlaps other := by
  have hne : after ≠ [] := by
    rintro rfl
    rw [List.append_nil] at hle
    omega
  obtain ⟨other, hmem, hother, hlt⟩ := h.exists_last hne
  exact ⟨other, hmem, byteLength before, ⟨hstart, hstop⟩, hother.le, hlt⟩

end Applied

/-! ## The fixes of a line -/

/-- An edit is made where the line holds its old text. -/
theorem applyEdit_of_range (document : Document) (done rest : List Text) {before : Text}
    (after : Text) {edit : TextEdit Range}
    (hrange : edit.range = Range.on done.length (spanOf before edit.oldText)) :
    applyEdit { document with lines := done ++ (before ++ edit.oldText ++ after) :: rest } edit =
      .ok { document with lines := done ++ (before ++ (edit.newText ++ after)) :: rest } := by
  obtain ⟨range, old, replacement⟩ := edit
  obtain rfl : range = Range.on done.length (spanOf before old) := hrange
  rw [applyEdit_line, List.append_assoc before]

/-- Without a limit nothing else is applied than with the end of the line for a limit. -/
theorem applyAll_none {limit : Nat} (document : Document) {edits : List (TextEdit Range)}
    (h : ∀ edit ∈ edits, edit.range.stop ≤ limit) :
    applyAll none document edits = applyAll (some limit) document edits := by
  cases edits with
  | nil => rfl
  | cons edit edits =>
    have hle := h edit (List.mem_cons_self ..)
    rw [applyAll, applyAll, if_neg (by simp), if_neg (by simpa using hle)]

/-- Fixes that are ordered from right to left, and know the text of the line as it was, are applied
in front of the ones applied before, unless they overlap an applied one. -/
theorem applyAll_substitutes (document : Document) (done rest : List Text) {before after new : Text}
    {applied : List (TextEdit Range)} (h : Applied done.length before after new applied)
    {edits : List (TextEdit Range)}
    (hcovers : ∀ edit ∈ edits,
      edit.range.Covers done.length (before ++ after) edit.oldText)
    (hsorted : edits.Pairwise fun edit other => other.range.start ≤ edit.range.start)
    (hstart : ∀ edit ∈ edits, edit.range.start ≤ byteLength before) :
    ∃ made skipped last, (made ++ skipped).Perm edits ∧
      applyAll (some (byteLength before))
          { document with lines := done ++ (before ++ new) :: rest } edits =
        (.ok made.length, { document with lines := done ++ last :: rest }) ∧
      Substitutes done.length [] (before ++ after) (made ++ applied) last ∧
      ∀ edit ∈ skipped, ∃ other ∈ made ++ applied, edit.Overlaps other := by
  -- Induction on the fixes that are left, the unchanged text getting shorter with each applied one.
  induction edits generalizing before after new applied with
  | nil =>
    exact ⟨[], [], before ++ new, .nil, rfl, Substitutes.prepend before h.substitutes, nofun⟩
  | cons edit edits ih =>
    rw [List.forall_mem_cons] at hcovers hstart
    rw [List.pairwise_cons] at hsorted
    by_cases hstop : byteLength before < edit.range.stop
    -- The fix reaches into the last applied one.
    · obtain ⟨made, skipped, last, hperm, hrun, hsubstitutes, hskipped⟩ :=
        ih h hcovers.2 hsorted.2 hstart.2
      obtain ⟨other, hother, hoverlaps⟩ :=
        h.exists_overlaps hstart.1 hstop hcovers.1.stop_le
      refine ⟨made, edit :: skipped, last, ?_, ?_, hsubstitutes, ?_⟩
      · exact List.perm_middle.trans (hperm.cons edit)
      · rw [applyAll, if_pos (by simpa using hstop), hrun]
      · exact List.forall_mem_cons.mpr
          ⟨⟨other, List.mem_append_right made hother, hoverlaps⟩, hskipped⟩
    -- The fix stands in the unchanged text, where it finds what it expects.
    · obtain ⟨first, middle, hne, rfl, hrange⟩ :=
        hcovers.1.exists_append_of_stop_le (Nat.le_of_not_lt hstop)
      have hline : first ++ edit.oldText ++ middle ++ after =
          first ++ (edit.oldText ++ (middle ++ after)) := by simp
      have hfirst : edit.range.start = byteLength first := by
        rw [hrange]
        rfl
      have hedit := applyEdit_of_range document done rest (middle ++ new) hrange
      obtain ⟨made, skipped, last, hperm, hrun, hsubstitutes, hskipped⟩ :=
        ih (h.edit hrange hne) (hline ▸ hcovers.2) hsorted.2 (hfirst ▸ hsorted.1)
      refine ⟨made ++ [edit], skipped, last, ?_, ?_, ?_, ?_⟩
      · rw [List.append_assoc]
        exact List.perm_middle.trans (hperm.cons edit)
      · rw [applyAll, if_neg (by simpa using hstop), List.append_assoc _ middle, hedit, hfirst]
        dsimp only
        rw [hrun]
        simp [Except.map]
      · rwa [hline, List.append_assoc made]
      · rwa [List.append_assoc]

/-- Ordering edits neither loses nor adds any. -/
theorem rightToLeft_perm (edits : List (TextEdit Range)) : (rightToLeft edits).Perm edits :=
  List.mergeSort_perm edits _

/-- No edit starts to the right of one that is in front of it. -/
theorem pairwise_rightToLeft (edits : List (TextEdit Range)) :
    (rightToLeft edits).Pairwise fun edit other => other.range.start ≤ edit.range.start := by
  have hsorted : (rightToLeft edits).Pairwise fun edit other =>
      decide (other.range.start ≤ edit.range.start) = true := by
    apply List.pairwise_mergeSort
    · intro first second third h h'
      exact decide_eq_true ((of_decide_eq_true h').trans (of_decide_eq_true h))
    · intro edit other
      simpa using Nat.le_total other.range.start edit.range.start
  exact hsorted.imp of_decide_eq_true

/-- Edits that are listed from right to left stay in their order. -/
theorem rightToLeft_of_pairwise {edits : List (TextEdit Range)}
    (h : edits.Pairwise fun edit other => other.range.start ≤ edit.range.start) :
    rightToLeft edits = edits :=
  List.mergeSort_of_pairwise (h.imp decide_eq_true)

/-- Edits that do not overlap are ordered alike however they are listed. -/
theorem rightToLeft_eq_of_perm {edits others : List (TextEdit Range)} (hperm : others.Perm edits)
    (hlt : ∀ edit ∈ edits, edit.range.start < edit.range.stop)
    (hdisjoint : edits.Pairwise fun edit other => ¬ edit.Overlaps other) :
    rightToLeft others = rightToLeft edits := by
  have hothers := (rightToLeft_perm others).trans hperm
  have hedits := rightToLeft_perm edits
  apply List.Perm.eq_of_pairwise _ (pairwise_rightToLeft others) (pairwise_rightToLeft edits)
    (hothers.trans hedits.symm)
  intro edit other hedit hother hle hge
  rw [hothers.mem_iff] at hedit
  rw [hedits.mem_iff] at hother
  -- Two different edits would overlap at the column where both start.
  by_contra hne
  have : Std.Symm fun edit other : TextEdit Range => ¬ edit.Overlaps other :=
    ⟨fun _ _ h h' => h h'.symm⟩
  exact hdisjoint.forall hedit hother hne
    (TextEdit.overlaps_of_start_eq (hlt edit hedit) (hlt other hother) (Nat.le_antisymm hge hle))

/-- A line of a document has some lines in front of it and some behind it. -/
theorem exists_append_of_getElem? {lines : List Text} {n : Nat} {line : Text}
    (h : lines[n]? = some line) : ∃ done rest, lines = done ++ line :: rest ∧ done.length = n := by
  obtain ⟨hlt, rfl⟩ := List.getElem?_eq_some_iff.mp h
  refine ⟨lines.take n, lines.drop (n + 1), ?_, List.length_take_of_le hlt.le⟩
  rw [← List.drop_eq_getElem_cons hlt, List.take_append_drop]

/-- The fixes of a single line are applied as a batch. -/
theorem applyFixes_singleton (document : Document) (edits : List (TextEdit Range)) :
    document.applyFixes [edits] = applyAll none document (rightToLeft edits) := by
  rw [applyFixes]
  rcases applyAll none document (rightToLeft edits) with ⟨_ | count, edited⟩
  · rfl
  · rfl

/-- The fixes of a line, each of which knows the text of the line at its place, are substituted:
those that are applied are made at once in the line as it was, and those that are skipped overlap an
applied one. If no fixes overlap, all of them are applied, and it does not matter how they are
listed. -/
theorem applyFixes_substitutes (document : Document) (result : LineResult Range) {n : Nat}
    {line : Text} (hline : document.lines[n]? = some line)
    (hfixes : ∀ fix ∈ result.fixes, fix.edit.range.line = n ∧
      fix.edit.range.start < fix.edit.range.stop ∧
      slice? fix.edit.range.start fix.edit.range.stop line = some fix.edit.oldText) :
    ∃ applied skipped new, (applied ++ skipped).Perm (result.fixes.map Fix.edit) ∧
      document.applyFixes [result.fixes.map Fix.edit] =
        (.ok applied.length, { document with lines := document.lines.set n new }) ∧
      Substitutes n [] line applied new ∧
      applied.Pairwise (fun edit other => ¬ edit.Overlaps other) ∧
      (∀ edit ∈ skipped, ∃ other ∈ applied, edit.Overlaps other) ∧
      ((result.fixes.map Fix.edit).Pairwise (fun edit other => ¬ edit.Overlaps other) →
        skipped = [] ∧ ∀ other : LineResult Range, other.fixes.Perm result.fixes →
          document.applyFixes [other.fixes.map Fix.edit] =
            document.applyFixes [result.fixes.map Fix.edit]) := by
  have hcovers : ∀ edit ∈ rightToLeft (result.fixes.map Fix.edit),
      edit.range.Covers n line edit.oldText := by
    intro edit hedit
    rw [(rightToLeft_perm _).mem_iff, List.mem_map] at hedit
    obtain ⟨fix, hfix, rfl⟩ := hedit
    obtain ⟨hn, hlt, hslice⟩ := hfixes fix hfix
    exact Range.covers_of_slice? hn hlt hslice
  obtain ⟨done, rest, hlines, rfl⟩ := exists_append_of_getElem? hline
  obtain ⟨made, skipped, new, hperm, hrun, hsubstitutes, hskipped⟩ :=
    applyAll_substitutes document done rest (.start done.length line) (by rwa [List.append_nil])
      (pairwise_rightToLeft _)
      fun edit hedit => (hcovers edit hedit).start_lt.le.trans (hcovers edit hedit).stop_le
  simp only [List.append_nil] at hrun hsubstitutes hskipped
  -- The applied fixes stand in a row, so none of them overlaps another.
  have hdisjoint : made.Pairwise fun edit other => ¬ edit.Overlaps other :=
    hsubstitutes.pairwise.imp TextEdit.not_overlaps_of_le
  have hperm' := hperm.trans (rightToLeft_perm _)
  refine ⟨made, skipped, new, hperm', ?_, hsubstitutes, hdisjoint, hskipped, fun hall => ⟨?_, ?_⟩⟩
  · have hset : document.lines.set done.length new = done ++ new :: rest := by simp [hlines]
    rw [applyFixes_singleton, applyAll_none document fun edit hedit => (hcovers edit hedit).stop_le,
      hset, ← hrun, ← hlines]
  -- A skipped fix overlaps an applied one, so there is none.
  · apply List.eq_nil_iff_forall_not_mem.mpr
    intro edit hedit
    obtain ⟨other, hother, hoverlaps⟩ := hskipped edit hedit
    have hpairwise := hperm'.symm.pairwise hall fun h h' => h h'.symm
    exact (List.pairwise_append.mp hpairwise).2.2 other hother edit hedit hoverlaps.symm
  · intro other hother
    rw [applyFixes_singleton, applyFixes_singleton,
      rightToLeft_eq_of_perm (hother.map Fix.edit) ?_ hall]
    intro edit hedit
    exact (hcovers edit ((rightToLeft_perm _).mem_iff.mpr hedit)).start_lt

/-- A problem of the first line whose fix replaces some text. -/
def problemAt (start stop : Nat) (old new : String) : Diagnostic Range where
  severity := .error
  range := ⟨0, start, stop⟩
  excerpt := "misspelled"
  fix := some ⟨⟨⟨0, start, stop⟩, old.toList, new.toList⟩, "correct"⟩

/-- Three problems in a chain, each of which overlaps the next one. -/
def chained : LineResult Range where
  kind := .empty
  diagnostics := [problemAt 0 3 "abc" "x", problemAt 2 5 "cde" "yy", problemAt 4 6 "ef" "z"]
  edits := []

/-- Not all fixes in a chain can be applied. -/
theorem applyFixes_substitutes_chained :
    (∀ fix ∈ chained.fixes, fix.edit.range.line = 0 ∧
      fix.edit.range.start < fix.edit.range.stop ∧
      slice? fix.edit.range.start fix.edit.range.stop "abcdef".toList = some fix.edit.oldText) ∧
    ∃ applied skipped new, (applied ++ skipped).Perm (chained.fixes.map Fix.edit) ∧
      applyFixes ⟨["abcdef".toList, []], .lf, true⟩ [chained.fixes.map Fix.edit] =
        (.ok applied.length, ⟨[new, []], .lf, true⟩) ∧
      Substitutes 0 [] "abcdef".toList applied new ∧
      (∀ edit ∈ skipped, ∃ other ∈ applied, edit.Overlaps other) := by
  have hfixes : ∀ fix ∈ chained.fixes, fix.edit.range.line = 0 ∧
      fix.edit.range.start < fix.edit.range.stop ∧
      slice? fix.edit.range.start fix.edit.range.stop "abcdef".toList =
        some fix.edit.oldText := by decide
  obtain ⟨applied, skipped, new, hperm, hrun, hsubstitutes, -, hskipped, -⟩ :=
    applyFixes_substitutes ⟨["abcdef".toList, []], .lf, true⟩ chained rfl hfixes
  exact ⟨hfixes, applied, skipped, new, hperm, hrun, hsubstitutes, hskipped⟩

end Document

end ItemFilter
