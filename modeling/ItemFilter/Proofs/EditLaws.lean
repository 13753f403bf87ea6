import ItemFilter.Document.Fixing
import ItemFilter.Proofs.Columns

/-!
# Laws of edits

An edit is made only where its range is part of the document and holds the text that the edit
expects. An edit that is refused changes nothing, and one that is made changes the text at its range
and nothing else. So the old text can be put back by another edit, and two edits of one line, one to
the left of the other, can be made in either order, as long as the right one is moved along with its
text. All of this is read off the line taken apart at a range: an edit exchanges the text in the
middle, and where the parts meet characters end, whatever the text is exchanged for.

## Main definitions

* `Text.IsBoundary`: a column at which no character is cut
* `Document.HasRange`: a range that is part of a document
* `Document.Splits`: a line taken apart at a range
* `TextEdit.inverse`: the edit that takes an edit back
* `TextEdit.growth`, `Range.IsMoved`: how far an edit moves the text behind it

## Main results

* `Document.hasRange_iff_exists_splits`: a line can be taken apart at the ranges of the document
* `Document.applyEdit_eq_ok_iff`, `Document.refuses_of_applyEdit`: what an edit does, or does not
* `Document.applyEdit_laws`: edits are checked, change nothing else, and can be taken back
-/

namespace ItemFilter

open Text

/-! ## Boundaries -/

namespace Text

variable {text : Text} {column : Nat}

/-- Whether a column is a valid position in the UTF-8 form of a text, so that no character is cut
there. -/
def IsBoundary (text : Text) (column : Nat) : Prop :=
  String.Pos.Raw.IsValid (String.ofList text) ⟨column⟩

theorem byteLength_eq_utf8ByteSize (text : Text) :
    byteLength text = (String.ofList text).utf8ByteSize := by
  induction text with
  | nil => rfl
  | cons c text ih =>
    rw [byteLength_cons, ih, String.ofList_cons, String.utf8ByteSize_append,
      String.utf8ByteSize_singleton]

/-- A column is a boundary if some characters of the text end there. -/
theorem isBoundary_iff :
    IsBoundary text column ↔
      ∃ before after, text = before ++ after ∧ byteLength before = column := by
  rw [IsBoundary, String.Pos.Raw.isValid_iff_exists_append]
  constructor
  · rintro ⟨before, after, htext, hcolumn⟩
    refine ⟨before.toList, after.toList, ?_, ?_⟩
    · rw [← String.toList_append, ← htext, String.toList_ofList]
    · rw [byteLength_eq_utf8ByteSize, String.ofList_toList]
      exact (congrArg String.Pos.Raw.byteIdx hcolumn).symm
  · rintro ⟨before, after, rfl, rfl⟩
    refine ⟨String.ofList before, String.ofList after, String.ofList_append, ?_⟩
    rw [byteLength_eq_utf8ByteSize]
    rfl

end Text

/-! ## Moved ranges -/

/-- A range with its columns moved. -/
structure Range.IsMoved (range : Range) (delta : Int) (moved : Range) : Prop where
  /-- It is on the same line. -/
  line_eq : moved.line = range.line
  /-- The first column is moved. -/
  start_eq : (moved.start : Int) = range.start + delta
  /-- So is the column after the last one. -/
  stop_eq : (moved.stop : Int) = range.stop + delta

namespace TextEdit

/-- The edit that puts the old text back in the place of the new one. -/
def inverse (edit : TextEdit Range) : TextEdit Range :=
  ⟨⟨edit.range.line, edit.range.start, edit.range.start + byteLength edit.newText⟩, edit.newText,
    edit.oldText⟩

/-- By how many bytes an edit makes its line longer. -/
def growth (edit : TextEdit Range) : Int :=
  (byteLength edit.newText : Int) - byteLength edit.oldText

end TextEdit

namespace Document

variable {document : Document} {range : Range} {before text after : Text}

/-! ## Ranges of a document -/

/-- Whether a range is part of a document: its line is there, and its ends are boundaries of the
line, in order. -/
def HasRange (document : Document) (range : Range) : Prop :=
  ∃ line, document.lines[range.line]? = some line ∧ range.start ≤ range.stop ∧
    range.stop ≤ byteLength line ∧ line.IsBoundary range.start ∧ line.IsBoundary range.stop

/-- A line of a document taken apart at a range: what is in front of it, at it and behind it. -/
structure Splits (document : Document) (range : Range) (before text after : Text) : Prop where
  /-- The parts make up the line. -/
  line_eq : document.lines[range.line]? = some (before ++ text ++ after)
  /-- The first part ends where the range starts. -/
  start_eq : range.start = byteLength before
  /-- The second part ends where the range does. -/
  stop_eq : range.stop = byteLength (before ++ text)

/-- A line can be taken apart exactly at the ranges of the document. -/
theorem hasRange_iff_exists_splits :
    document.HasRange range ↔ ∃ before text after, document.Splits range before text after := by
  constructor
  · rintro ⟨line, hline, hle, -, hstart, hstop⟩
    obtain ⟨before, rest, rfl, hbefore⟩ := isBoundary_iff.mp hstart
    obtain ⟨front, after, hfront, hlength⟩ := isBoundary_iff.mp hstop
    -- Of the texts in front of the two ends, the first is part of the second.
    obtain ⟨text, rfl, rfl⟩ := exists_append_of_le hfront (by omega)
    exact ⟨before, text, after, by rwa [List.append_assoc], hbefore.symm, hlength.symm⟩
  · rintro ⟨before, text, after, hline, hstart, hstop⟩
    refine ⟨before ++ text ++ after, hline, ?_, ?_, isBoundary_iff.mpr ?_, isBoundary_iff.mpr ?_⟩
    · rw [hstart, hstop, byteLength_append]
      exact Nat.le_add_right ..
    · rw [hstop, byteLength_append _ after]
      exact Nat.le_add_right ..
    · exact ⟨before, text ++ after, List.append_assoc .., hstart.symm⟩
    · exact ⟨before ++ text, after, rfl, hstop.symm⟩

/-- Of two ranges of a line, one to the left of the other, the left one is in front of the right one
with some text in between. -/
theorem Splits.exists_between {other : Range} {front inside rest : Text}
    (h : document.Splits range before text rest) (h' : document.Splits other front inside after)
    (hline : range.line = other.line) (hle : range.stop ≤ other.start) :
    ∃ middle, front = before ++ text ++ middle ∧ rest = middle ++ (inside ++ after) := by
  have hsame : before ++ text ++ rest = front ++ (inside ++ after) := by
    have hlines := h.line_eq
    rw [hline, h'.line_eq, Option.some.injEq] at hlines
    rw [← hlines, List.append_assoc]
  rw [h.stop_eq, h'.start_eq] at hle
  exact exists_append_of_le hsame hle

/-- A text is read at a range exactly where a line is taken apart with the text in the middle. -/
theorem textIn_eq_ok_iff :
    document.textIn range = .ok text ↔ ∃ before after, document.Splits range before text after := by
  constructor
  · intro h
    unfold textIn at h
    split at h
    · next found hfound =>
      obtain rfl := Except.ok.inj h
      obtain ⟨line, hline, hslice⟩ := Option.bind_eq_some_iff.mp hfound
      obtain ⟨before, after, rfl, hstart, hstop⟩ := slice?_eq_some_iff.mp hslice
      exact ⟨before, after, by rwa [List.append_assoc], hstart.symm, hstop.symm⟩
    · cases h
  · rintro ⟨before, after, hline, hstart, hstop⟩
    have hslice : (document.line? range.line).bind (slice? range.start range.stop) = some text := by
      rw [line?, hline, hstart, hstop]
      exact slice?_append before text after
    rw [textIn, hslice]

/-- A range that is no part of the document cannot be read. -/
theorem textIn_of_not_hasRange (h : ¬ document.HasRange range) :
    document.textIn range = .error (.outOfRange range) := by
  cases hfound : (document.line? range.line).bind (slice? range.start range.stop) with
  | none => rw [textIn, hfound]
  | some text =>
    have hok : document.textIn range = .ok text := by rw [textIn, hfound]
    obtain ⟨before, after, hsplits⟩ := textIn_eq_ok_iff.mp hok
    exact absurd (hasRange_iff_exists_splits.mpr ⟨before, text, after, hsplits⟩) h

/-! ## Changed lines -/

/-- A document with one of its lines exchanged. -/
def withLine (document : Document) (n : Nat) (line : Text) : Document :=
  { document with lines := document.lines.set n line }

@[simp] theorem withLine_withLine (document : Document) (n : Nat) (line other : Text) :
    (document.withLine n line).withLine n other = document.withLine n other := by
  rw [withLine, withLine, withLine, List.set_set]

theorem withLine_of_line {n : Nat} {line : Text} (h : document.lines[n]? = some line) :
    document.withLine n line = document := by
  obtain ⟨hlt, rfl⟩ := List.getElem?_eq_some_iff.mp h
  rw [withLine, List.set_getElem_self]

/-- A range is replaced in the line that is taken apart at it. -/
theorem Splits.setText_eq (h : document.Splits range before text after) (new : Text) :
    document.setText range new = .ok (document.withLine range.line (before ++ new ++ after)) := by
  have hreplace : (document.line? range.line).bind (replace? range.start range.stop new) =
      some (before ++ new ++ after) := by
    rw [line?, h.line_eq, h.start_eq, h.stop_eq]
    exact replace?_append before text after new
  rw [setText, hreplace]
  rfl

/-- A line that is put in the place of another is taken apart wherever it falls into parts. -/
theorem splits_withLine {n : Nat} {line : Text} (hlt : n < document.lines.length)
    (hn : range.line = n) (hline : line = before ++ text ++ after)
    (hstart : range.start = byteLength before) (hstop : range.stop = byteLength (before ++ text)) :
    (document.withLine n line).Splits range before text after := by
  refine ⟨?_, hstart, hstop⟩
  rw [withLine, hn, List.getElem?_set_self hlt, hline]

theorem Splits.line_lt (h : document.Splits range before text after) :
    range.line < document.lines.length :=
  (List.getElem?_eq_some_iff.mp h.line_eq).1

/-! ## What an edit does -/

variable {edit left right : TextEdit Range} {edited leftEdited rightEdited : Document}

/-- An edit is made where a line is taken apart with its old text in the middle. -/
theorem Splits.applyEdit_eq (h : document.Splits edit.range before edit.oldText after) :
    document.applyEdit edit =
      .ok (document.withLine edit.range.line (before ++ edit.newText ++ after)) := by
  have hfound : document.textIn edit.range = .ok edit.oldText :=
    textIn_eq_ok_iff.mpr ⟨before, after, h⟩
  rw [applyEdit, hfound]
  exact (if_pos rfl).trans (h.setText_eq edit.newText)

/-- An edit is made, or it finds another text than its old one, or there is no such range. -/
theorem applyEdit_cases (document : Document) (edit : TextEdit Range) :
    (∃ before after, document.Splits edit.range before edit.oldText after ∧
      document.applyEdit edit =
        .ok (document.withLine edit.range.line (before ++ edit.newText ++ after))) ∨
    (∃ before found after, document.Splits edit.range before found after ∧ found ≠ edit.oldText ∧
      document.applyEdit edit = .error (.staleEdit edit.range.line edit.oldText found)) ∨
    (¬ document.HasRange edit.range ∧
      document.applyEdit edit = .error (.outOfRange edit.range)) := by
  by_cases hrange : document.HasRange edit.range
  · obtain ⟨before, found, after, hsplits⟩ := hasRange_iff_exists_splits.mp hrange
    by_cases hold : found = edit.oldText
    · subst hold
      exact Or.inl ⟨before, after, hsplits, hsplits.applyEdit_eq⟩
    · refine Or.inr (Or.inl ⟨before, found, after, hsplits, hold, ?_⟩)
      rw [applyEdit, textIn_eq_ok_iff.mpr ⟨before, after, hsplits⟩]
      exact if_neg hold
  · refine Or.inr (Or.inr ⟨hrange, ?_⟩)
    rw [applyEdit, textIn_of_not_hasRange hrange]
    rfl

/-- An edit that is made exchanges the text in the middle of a line. -/
theorem applyEdit_eq_ok_iff :
    document.applyEdit edit = .ok edited ↔
      ∃ before after, document.Splits edit.range before edit.oldText after ∧
        edited = document.withLine edit.range.line (before ++ edit.newText ++ after) := by
  constructor
  · intro h
    rcases document.applyEdit_cases edit with
      ⟨before, after, hsplits, hmade⟩ | ⟨_, _, _, _, _, hstale⟩ | ⟨_, hrange⟩
    · rw [hmade] at h
      exact ⟨before, after, hsplits, (Except.ok.inj h).symm⟩
    · rw [hstale] at h
      cases h
    · rw [hrange] at h
      cases h
  · rintro ⟨before, after, hsplits, rfl⟩
    exact hsplits.applyEdit_eq

/-- What it means that an edit is refused. -/
structure Refuses (document : Document) (edit : TextEdit Range) (e : DocumentError) : Prop where
  /-- Without its range there is nothing that the edit could find. -/
  outOfRange (h : ¬ document.HasRange edit.range) : e = .outOfRange edit.range
  /-- At its range the edit finds another text than it expects. -/
  stale (h : document.HasRange edit.range) : ∃ before found after,
    document.Splits edit.range before found after ∧ found ≠ edit.oldText ∧
      e = .staleEdit edit.range.line edit.oldText found
  /-- Nothing is changed, whatever edits were to follow. -/
  unchanged (edits : List (TextEdit Range)) :
    applyAll none document (edit :: edits) = (.error e, document)

theorem refuses_of_applyEdit {e : DocumentError} (h : document.applyEdit edit = .error e) :
    document.Refuses edit e where
  outOfRange hrange := by
    rw [applyEdit, textIn_of_not_hasRange hrange] at h
    exact (Except.error.inj h).symm
  stale hrange := by
    rcases document.applyEdit_cases edit with
      ⟨_, _, _, hmade⟩ | ⟨before, found, after, hsplits, hne, hstale⟩ | ⟨hnot, -⟩
    · rw [hmade] at h
      cases h
    · rw [hstale] at h
      exact ⟨before, found, after, hsplits, hne, (Except.error.inj h).symm⟩
    · exact absurd hrange hnot
  unchanged edits := by
    rw [applyAll, if_neg (by simp), h]

/-- What an edit that is made does to a document. -/
structure IsEdited (document : Document) (edit : TextEdit Range) (edited : Document) : Prop where
  /-- Lines are ended as before. -/
  ending_eq : edited.ending = document.ending
  /-- So is the last line, or it is not ended, as before. -/
  finalNewline_eq : edited.finalNewline = document.finalNewline
  /-- There are as many lines as before. -/
  length_eq : edited.lines.length = document.lines.length
  /-- All lines but one are the same. -/
  line_eq (n : Nat) (h : n ≠ edit.range.line) : edited.lines[n]? = document.lines[n]?
  /-- In that line, what is in front of the range is kept, and so is what is behind it. -/
  exists_splits : ∃ before after, document.Splits edit.range before edit.oldText after ∧
    edited.Splits edit.inverse.range before edit.newText after
  /-- The new text is found where the old text started. -/
  textIn_eq : edited.textIn ⟨edit.range.line, edit.range.start,
    edit.range.start + byteLength edit.newText⟩ = .ok edit.newText
  /-- The edit can be taken back. -/
  applyEdit_inverse : edited.applyEdit edit.inverse = .ok document

theorem isEdited_of_applyEdit (h : document.applyEdit edit = .ok edited) :
    document.IsEdited edit edited := by
  obtain ⟨before, after, hsplits, rfl⟩ := applyEdit_eq_ok_iff.mp h
  have hinverse : (document.withLine edit.range.line (before ++ edit.newText ++ after)).Splits
      edit.inverse.range before edit.newText after := by
    refine splits_withLine hsplits.line_lt rfl rfl hsplits.start_eq ?_
    rw [byteLength_append, ← hsplits.start_eq]
    rfl
  refine ⟨rfl, rfl, List.length_set, ?_, ⟨before, after, hsplits, hinverse⟩, ?_, ?_⟩
  · intro n hn
    exact List.getElem?_set_ne hn.symm
  · exact textIn_eq_ok_iff.mpr ⟨before, after, hinverse⟩
  · rw [hinverse.applyEdit_eq]
    exact congrArg Except.ok
      ((withLine_withLine ..).trans (withLine_of_line hsplits.line_eq))

/-- An edit moves the text behind it by what it grows. -/
theorem Splits.exists_moved {other : Range} {middle inside : Text}
    (h : document.Splits edit.range before edit.oldText (middle ++ (inside ++ after)))
    (h' : document.Splits other (before ++ edit.oldText ++ middle) inside after)
    (hline : edit.range.line = other.line) :
    ∃ moved, other.IsMoved edit.growth moved ∧
      (document.withLine edit.range.line
        (before ++ edit.newText ++ (middle ++ (inside ++ after)))).Splits moved
        (before ++ edit.newText ++ middle) inside after := by
  have hstart := h'.start_eq
  have hstop := h'.stop_eq
  refine ⟨⟨edit.range.line, byteLength (before ++ edit.newText ++ middle),
    byteLength (before ++ edit.newText ++ middle ++ inside)⟩, ⟨hline, ?_, ?_⟩, ?_⟩
  · simp only [hstart, TextEdit.growth, byteLength_append]
    omega
  · simp only [hstop, TextEdit.growth, byteLength_append]
    omega
  · exact splits_withLine h.line_lt rfl (by simp) rfl rfl

/-- Two edits of one line are made in either order, if the one to the right is moved along with its
text when it comes second. -/
theorem exists_applyEdit_comm (hline : left.range.line = right.range.line)
    (hle : left.range.stop ≤ right.range.start)
    (hleft : document.applyEdit left = .ok leftEdited)
    (hright : document.applyEdit right = .ok rightEdited) :
    ∃ moved both, right.range.IsMoved left.growth moved ∧
      leftEdited.applyEdit { right with range := moved } = .ok both ∧
      rightEdited.applyEdit left = .ok both := by
  obtain ⟨before, rest, hsplits, rfl⟩ := applyEdit_eq_ok_iff.mp hleft
  obtain ⟨front, after, hsplits', rfl⟩ := applyEdit_eq_ok_iff.mp hright
  -- The line falls into five parts: the two old texts, and what is around and between them.
  obtain ⟨middle, rfl, rfl⟩ := hsplits.exists_between hsplits' hline hle
  obtain ⟨moved, hmoved, hsecond⟩ := hsplits.exists_moved hsplits' hline
  have hfirst : (document.withLine right.range.line
      (before ++ left.oldText ++ middle ++ right.newText ++ after)).Splits left.range
      before left.oldText (middle ++ right.newText ++ after) :=
    splits_withLine hsplits'.line_lt hline (by simp) hsplits.start_eq hsplits.stop_eq
  refine ⟨moved, _, hmoved, ?_, hfirst.applyEdit_eq⟩
  refine applyEdit_eq_ok_iff.mpr ⟨_, _, hsecond, ?_⟩
  rw [hmoved.line_eq, hline]
  simp

/-- An edit is made exactly if its range is part of the document and its old text is there. If it is
refused, then nothing is changed; and if it is made, then nothing but the text at its range, so that
it can be taken back. Two edits that could be made on a line, one to the left of the other, come to
the same in either order, if the right one is moved by the growth of the left one. -/
theorem applyEdit_laws (document : Document) :
    (∀ edit, (∃ edited, document.applyEdit edit = .ok edited) ↔
      document.HasRange edit.range ∧
        ∃ before after, document.Splits edit.range before edit.oldText after) ∧
    (∀ edit e, document.applyEdit edit = .error e → document.Refuses edit e) ∧
    (∀ edit edited, document.applyEdit edit = .ok edited → document.IsEdited edit edited) ∧
    ∀ left right leftEdited rightEdited, left.range.line = right.range.line →
      left.range.stop ≤ right.range.start →
      document.applyEdit left = .ok leftEdited → document.applyEdit right = .ok rightEdited →
      ∃ moved both, right.range.IsMoved left.growth moved ∧
        leftEdited.applyEdit { right with range := moved } = .ok both ∧
        rightEdited.applyEdit left = .ok both := by
  refine ⟨?_, ?_, ?_, ?_⟩
  · intro edit
    constructor
    · rintro ⟨edited, h⟩
      obtain ⟨before, after, hsplits, -⟩ := applyEdit_eq_ok_iff.mp h
      exact ⟨hasRange_iff_exists_splits.mpr ⟨_, _, _, hsplits⟩, before, after, hsplits⟩
    · rintro ⟨-, before, after, hsplits⟩
      exact ⟨_, hsplits.applyEdit_eq⟩
  · intro edit e h
    exact refuses_of_applyEdit h
  · intro edit edited h
    exact isEdited_of_applyEdit h
  · intro left right leftEdited rightEdited hline hle hleft hright
    exact exists_applyEdit_comm hline hle hleft hright

/-- A line with characters of several bytes behind a colour. -/
def accented : Document :=
  ⟨["Show".toList, "SetTextColor #ff é€".toList], .crlf, true⟩

/-- The colour is made longer. -/
def lengthenColor : TextEdit Range :=
  ⟨⟨1, 13, 16⟩, "#ff".toList, "255 0 0".toList⟩

/-- A character behind the colour is made shorter. -/
def dropAccent : TextEdit Range :=
  ⟨⟨1, 17, 19⟩, "é".toList, "e".toList⟩

/-- A place between the two bytes of a character. -/
def insideAccent : TextEdit Range :=
  ⟨⟨1, 18, 18⟩, [], "e".toList⟩

/-- The shortened character is found four columns further to the right behind the longer colour. -/
theorem applyEdit_laws_accented :
    accented.applyEdit insideAccent = .error (.outOfRange insideAccent.range) ∧
    accented.Refuses insideAccent (.outOfRange insideAccent.range) ∧
    ∃ lengthened shortened, accented.applyEdit lengthenColor = .ok lengthened ∧
      accented.applyEdit dropAccent = .ok shortened ∧
      lengthenColor.range.stop ≤ dropAccent.range.start ∧
      accented.IsEdited lengthenColor lengthened ∧
      ∃ moved both, dropAccent.range.IsMoved 4 moved ∧
        lengthened.applyEdit { dropAccent with range := moved } = .ok both ∧
        shortened.applyEdit lengthenColor = .ok both := by
  obtain ⟨-, hrefuses, hedited, hcomm⟩ := applyEdit_laws accented
  have hinside : accented.applyEdit insideAccent = .error (.outOfRange insideAccent.range) := rfl
  have hcolor : accented.Splits lengthenColor.range "SetTextColor ".toList lengthenColor.oldText
      " é€".toList := ⟨by decide, by decide, by decide⟩
  have haccent : accented.Splits dropAccent.range "SetTextColor #ff ".toList dropAccent.oldText
      "€".toList := ⟨by decide, by decide, by decide⟩
  have hlengthen := hcolor.applyEdit_eq
  have hdrop := haccent.applyEdit_eq
  exact ⟨hinside, hrefuses _ _ hinside, _, _, hlengthen, hdrop, by decide, hedited _ _ hlengthen,
    hcomm lengthenColor dropAccent _ _ rfl (by decide) hlengthen hdrop⟩

end Document

end ItemFilter
