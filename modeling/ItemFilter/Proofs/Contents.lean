import ItemFilter.Document
import ItemFilter.Proofs.KeywordLine

/-!
# The text of a document

A document is written as its lines with the ending of the first one behind each, and what is written
is taken apart into the same document again. This needs the document to be one that a text can be
taken apart into: its lines hold no line breaks, the last of them is not empty unless it is ended,
and the line ending shows somewhere.

## Main definitions

* `Document.IsProper`: a document that a text can be taken apart into

## Main results

* `Document.isProper_parse`: a text is taken apart into a proper document
* `Document.parse_contents`: a proper document without stray line breaks is read as it was written
* `Document.contents_inj`: such documents have the same text only if they are the same
-/

namespace ItemFilter

open Text
open Cursor (breaksLine)

/-! ## Lines -/

namespace Text

theorem Unbroken.lf_notMem {line : Text} (h : Unbroken line) : '\n' ∉ line := fun hmem =>
  absurd (h _ hmem) (by decide)

theorem Unbroken.cr_notMem {line : Text} (h : Unbroken line) : '\r' ∉ line := fun hmem =>
  absurd (h _ hmem) (by decide)

/-- Up to a line feed, everything belongs to the first line. -/
theorem linesAfter_append {line : Text} (h : '\n' ∉ line) (front text : Text) :
    linesAfter front (line ++ text) = linesAfter (line.reverse ++ front) text := by
  induction line generalizing front with
  | nil => rfl
  | cons c line ih =>
    rw [List.mem_cons, not_or] at h
    rw [List.cons_append, linesAfter, if_neg fun hc => h.1 hc.symm, ih h.2, List.reverse_cons,
      List.append_assoc, List.singleton_append]

theorem dropReturn_of_notMem {line : Text} (h : '\r' ∉ line) : dropReturn line = line := by
  unfold dropReturn
  split
  · simp at h
  · rfl

/-- A line with its ending is the first line of a text. -/
theorem lines_cons {line : Text} (hline : Unbroken line) (ending : LineEnding) (text : Text) :
    lines (line ++ ending.characters ++ text) = line :: lines text := by
  have hcr : '\r' ∉ line.reverse := by simpa using hline.cr_notMem
  rw [lines, List.append_assoc, linesAfter_append hline.lf_notMem, List.append_nil]
  cases ending with
  | lf => simp [LineEnding.characters, linesAfter, dropReturn_of_notMem hcr, lines]
  | crlf => simp [LineEnding.characters, linesAfter, dropReturn, lines]

/-- What is not ended is the last line, unless it is empty. -/
theorem lines_last {line : Text} (hline : Unbroken line) (hne : line ≠ []) :
    lines line = [line] := by
  have happend := linesAfter_append hline.lf_notMem [] []
  rw [List.append_nil, List.append_nil] at happend
  rw [lines, happend, linesAfter, if_neg (by simpa using hne), List.reverse_reverse]

theorem linesAfter_ne_nil {front text : Text} (h : front ≠ [] ∨ text ≠ []) :
    linesAfter front text ≠ [] := by
  induction text generalizing front with
  | nil => simpa [linesAfter] using h
  | cons c text ih =>
    rw [linesAfter]
    split
    · simp
    · exact ih (Or.inl (by simp))

/-- A text that does not end with a line feed has no empty last line. -/
theorem getLast?_linesAfter {text : Text} (front : Text) (h : text.getLast? ≠ some '\n') :
    (linesAfter front text).getLast? ≠ some [] := by
  induction text generalizing front with
  | nil =>
    rw [linesAfter]
    split
    · simp
    · next hne => simpa using hne
  | cons c text ih =>
    by_cases htext : text = []
    · subst htext
      have hc : c ≠ '\n' := by simpa using h
      simp [linesAfter, hc]
    · rw [List.getLast?_cons_of_ne_nil htext] at h
      rw [linesAfter]
      split
      · -- There are further lines behind the line feed.
        rw [List.getLast?_cons_of_ne_nil (linesAfter_ne_nil (Or.inr htext))]
        exact ih [] h
      · exact ih _ h

end Text

namespace Document

/-- A document that a text can be taken apart into. -/
structure IsProper (document : Document) : Prop where
  /-- Where a line is ended there is a line. -/
  ne_nil : document.finalNewline = true → document.lines ≠ []
  /-- A last line that is not ended has a character. -/
  last_ne : document.finalNewline = false → document.lines.getLast? ≠ some []
  /-- The line ending of a text without line breaks is a line feed. -/
  ending_eq : document.finalNewline = false → document.lines.length ≤ 1 → document.ending = .lf

/-- A text of which nothing is ended has no line feed. -/
theorem lf_notMem_of_length_le {text front : Text} (hlast : text.getLast? ≠ some '\n')
    (hlength : (linesAfter front text).length ≤ 1) : '\n' ∉ text := by
  induction text generalizing front with
  | nil => simp
  | cons c text ih =>
    by_cases htext : text = []
    · subst htext
      simpa [eq_comm] using hlast
    · rw [List.getLast?_cons_of_ne_nil htext] at hlast
      rw [linesAfter] at hlength
      split at hlength
      · have hne : linesAfter [] text ≠ [] := linesAfter_ne_nil (Or.inr htext)
        have hpos := List.length_pos_iff.mpr hne
        rw [List.length_cons] at hlength
        omega
      · next hc =>
        rw [List.mem_cons, not_or]
        exact ⟨fun h => hc h.symm, ih hlast hlength⟩

theorem endingAfter_of_notMem {text : Text} (h : '\n' ∉ text) (previous : Option Char) :
    endingAfter previous text = .lf := by
  induction text generalizing previous with
  | nil => rfl
  | cons c text ih =>
    rw [List.mem_cons, not_or] at h
    rw [endingAfter, if_neg fun hc => h.1 hc.symm]
    exact ih h.2 _

/-- The ending of a text is that of its first line. -/
theorem endingAfter_line {line : Text} (hline : Unbroken line) (ending : LineEnding)
    (text : Text) {previous : Option Char} (hprevious : previous ≠ some '\r') :
    endingAfter previous (line ++ ending.characters ++ text) = ending := by
  induction line generalizing previous with
  | nil => cases ending <;> simp [LineEnding.characters, endingAfter, hprevious]
  | cons c line ih =>
    have hc : c ≠ '\n' ∧ c ≠ '\r' := by
      have hmem := hline c (List.mem_cons_self ..)
      constructor
      all_goals
        rintro rfl
        exact absurd hmem (by decide)
    rw [List.cons_append, List.cons_append, endingAfter, if_neg hc.1]
    exact ih (fun d hd => hline d (List.mem_cons_of_mem _ hd)) fun h => hc.2 (Option.some.inj h)

/-- A text is taken apart into a proper document. -/
theorem isProper_parse (text : Text) : (parse text).IsProper where
  ne_nil h := by
    refine linesAfter_ne_nil (Or.inr ?_)
    rintro rfl
    cases h
  last_ne h := getLast?_linesAfter [] (by simpa [parse] using h)
  ending_eq h hlength := by
    have hlast : text.getLast? ≠ some '\n' := by simpa [parse] using h
    exact endingAfter_of_notMem (lf_notMem_of_length_le hlast hlength) none

/-! ## Writing and reading -/

variable {document : Document}

theorem contents_nil (ending : LineEnding) (finalNewline : Bool) :
    contents ⟨[], ending, finalNewline⟩ = [] := by
  simp [contents, joinWith]

theorem contents_singleton (line : Text) (ending : LineEnding) :
    contents ⟨[line], ending, false⟩ = line := by
  simp [contents, joinWith]

/-- A line is ended if there are further lines, or if the last line is ended. -/
theorem contents_cons (line : Text) (ending : LineEnding) {rest : List Text} {finalNewline : Bool}
    (h : rest ≠ [] ∨ finalNewline = true) :
    contents ⟨line :: rest, ending, finalNewline⟩ =
      line ++ ending.characters ++ contents ⟨rest, ending, finalNewline⟩ := by
  cases rest with
  | nil =>
    obtain rfl : finalNewline = true := by simpa using h
    simp [contents, joinWith]
  | cons next rest => simp [contents, joinWith]

/-- The lines of a text are those that were written. -/
theorem lines_contents (ending : LineEnding) {lines : List Text}
    (hlines : ∀ line ∈ lines, Unbroken line) {finalNewline : Bool}
    (hlast : finalNewline = false → lines.getLast? ≠ some []) :
    Text.lines (contents ⟨lines, ending, finalNewline⟩) = lines := by
  -- Induction on the lines, the first of them being written in front of the others.
  induction lines with
  | nil =>
    rw [contents_nil]
    rfl
  | cons line rest ih =>
    rw [List.forall_mem_cons] at hlines
    by_cases hended : rest ≠ [] ∨ finalNewline = true
    · have hrest : finalNewline = false → rest.getLast? ≠ some [] := by
        intro hfinal
        have hne := hended.resolve_right (by simp [hfinal])
        have h := hlast hfinal
        rwa [List.getLast?_cons_of_ne_nil hne] at h
      rw [contents_cons line ending hended, lines_cons hlines.1, ih hlines.2 hrest]
    · obtain ⟨rfl, rfl⟩ : rest = [] ∧ finalNewline = false := by simpa using hended
      rw [contents_singleton, lines_last hlines.1 (by simpa using hlast rfl)]

/-- A text ends with a line feed if and only if its last line is ended. -/
theorem getLast?_contents (ending : LineEnding) {lines : List Text}
    (hlines : ∀ line ∈ lines, Unbroken line) {finalNewline : Bool}
    (hne : finalNewline = true → lines ≠ [])
    (hlast : finalNewline = false → lines.getLast? ≠ some []) :
    ((contents ⟨lines, ending, finalNewline⟩).getLast? == some '\n') = finalNewline := by
  cases finalNewline with
  | true =>
    have hlines : lines.isEmpty = false := by simpa using hne rfl
    cases ending <;> simp [contents, hlines, LineEnding.characters]
  | false =>
    -- Induction on the lines: the end of the text is the end of the last one.
    induction lines with
    | nil => rfl
    | cons line rest ih =>
      rw [List.forall_mem_cons] at hlines
      by_cases hrest : rest = []
      · subst hrest
        rw [contents_singleton, beq_eq_false_iff_ne]
        intro h
        exact hlines.1.lf_notMem (List.mem_of_getLast? h)
      · have hrest' : rest.getLast? ≠ some [] := by
          have h := hlast rfl
          rwa [List.getLast?_cons_of_ne_nil hrest] at h
        have hcontents : contents ⟨rest, ending, false⟩ ≠ [] := by
          intro h
          have hread : Text.lines (contents ⟨rest, ending, false⟩) = rest :=
            lines_contents ending hlines.2 fun _ => hrest'
          rw [h] at hread
          exact hrest hread.symm
        rw [contents_cons line ending (Or.inl hrest), List.getLast?_append_of_ne_nil _ hcontents]
        exact ih hlines.2 nofun fun _ => hrest'

/-- A proper document without stray line breaks is read as it was written. -/
theorem parse_contents (hproper : document.IsProper)
    (hlines : ∀ line ∈ document.lines, Unbroken line) : parse document.contents = document := by
  obtain ⟨lines, ending, finalNewline⟩ := document
  have hending : endingAfter none (contents ⟨lines, ending, finalNewline⟩) = ending := by
    cases lines with
    | nil =>
      have hfinal : finalNewline = false := by simpa using hproper.ne_nil
      rw [contents_nil, endingAfter]
      exact (hproper.ending_eq hfinal (Nat.zero_le 1)).symm
    | cons line rest =>
      rw [List.forall_mem_cons] at hlines
      by_cases hended : rest ≠ [] ∨ finalNewline = true
      · rw [contents_cons line ending hended]
        exact endingAfter_line hlines.1 ending _ nofun
      · obtain ⟨rfl, rfl⟩ : rest = [] ∧ finalNewline = false := by simpa using hended
        rw [contents_singleton, endingAfter_of_notMem hlines.1.lf_notMem]
        exact (hproper.ending_eq rfl (Nat.le_refl 1)).symm
  rw [parse, lines_contents ending hlines hproper.last_ne, hending,
    getLast?_contents ending hlines hproper.ne_nil hproper.last_ne]

/-- Proper documents without stray line breaks have the same text only if they are the same. -/
theorem contents_inj {other : Document} (hproper : document.IsProper)
    (hlines : ∀ line ∈ document.lines, Unbroken line) (hother : other.IsProper)
    (hothers : ∀ line ∈ other.lines, Unbroken line) :
    document.contents = other.contents ↔ document = other := by
  constructor
  · intro h
    rw [← parse_contents hproper hlines, h, parse_contents hother hothers]
  · intro h
    rw [h]

end Document

end ItemFilter
