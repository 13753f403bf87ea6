import Mathlib.Data.List.DropRight
import ItemFilter.Cursor

/-!
# White space around a text

A scanned line falls into runs of white space and flush texts, which start with some other
character. Trimming takes a run off, and the extent of a line is read off such a decomposition.

## Main definitions

* `Text.IsFlush`: a text with no white space in front
* `Text.chunk`, `Text.afterChunk`: the first run without white space, and what follows it

## Main results

* `Text.eq_trimEnd_append`: a text is its trimmed form and a run of white space
* `Cursor.extent_stop_append`: a line ends where the content of its last part does
* `Cursor.extent_replace`: the extent of a line moves along when a part of it is replaced
-/

namespace ItemFilter

open Text

namespace Text

/-! ## Flush texts -/

/-- A text that starts with a character other than white space. -/
def IsFlush (text : Text) : Prop :=
  ∃ c rest, text = c :: rest ∧ isBlank c = false

theorem isFlush_cons {c : Char} {text : Text} : IsFlush (c :: text) ↔ isBlank c = false := by
  constructor
  · rintro ⟨_, _, h, hc⟩
    obtain ⟨rfl, rfl⟩ := List.cons.inj h
    exact hc
  · exact fun hc => ⟨c, text, rfl, hc⟩

theorem IsFlush.ne_nil {text : Text} (h : IsFlush text) : text ≠ [] := by
  rintro rfl
  obtain ⟨_, _, h, -⟩ := h
  cases h

theorem IsFlush.append {text : Text} (h : IsFlush text) (after : Text) :
    IsFlush (text ++ after) := by
  obtain ⟨c, rest, rfl, hc⟩ := h
  exact ⟨c, rest ++ after, rfl, hc⟩

theorem IsFlush.allBlank_eq_false {text : Text} (h : IsFlush text) : allBlank text = false := by
  obtain ⟨c, rest, rfl, hc⟩ := h
  simp [allBlank, hc]

/-- The head of a flush text is that of every text it is the start of. -/
theorem IsFlush.head?_append {text : Text} (h : IsFlush text) (after : Text) :
    (text ++ after).head? = text.head? := by
  obtain ⟨c, rest, rfl, -⟩ := h
  rfl

/-! ## Trimming at the start -/

@[simp] theorem allBlank_nil : allBlank [] = true := rfl

theorem allBlank_append (left right : Text) :
    allBlank (left ++ right) = (allBlank left && allBlank right) :=
  List.all_append

theorem allBlank_leading (text : Text) : allBlank (leading text) = true :=
  List.all_takeWhile

theorem trimStart_append {gap : Text} (hgap : allBlank gap = true) (text : Text) :
    trimStart (gap ++ text) = trimStart text :=
  List.dropWhile_append_of_pos (List.all_eq_true.mp hgap)

theorem IsFlush.trimStart {text : Text} (h : IsFlush text) : trimStart text = text := by
  obtain ⟨c, rest, rfl, hc⟩ := h
  simp [Text.trimStart, hc]

theorem trimStart_append_of_flush {gap text : Text} (hgap : allBlank gap = true)
    (h : IsFlush text) : trimStart (gap ++ text) = text := by
  rw [trimStart_append hgap, h.trimStart]

theorem leading_append_of_flush {gap text : Text} (hgap : allBlank gap = true)
    (h : IsFlush text) : leading (gap ++ text) = gap := by
  have hsplit := leading_append_trimStart (gap ++ text)
  rw [trimStart_append_of_flush hgap h] at hsplit
  exact List.append_cancel_right hsplit

/-- What is left after trimming is flush, unless nothing is left. -/
theorem isFlush_trimStart {text : Text} (h : allBlank text = false) : IsFlush (trimStart text) := by
  cases ht : trimStart text with
  | nil =>
    have hall : allBlank text = true :=
      List.all_eq_true.mpr (List.dropWhile_eq_nil_iff.mp ht)
    rw [h] at hall
    cases hall
  | cons c rest =>
    -- the first character that is kept is the first that is no white space
    have hc := List.head_dropWhile_not isBlank (l := text) (by
      rw [show text.dropWhile isBlank = c :: rest from ht]
      simp)
    simp only [show text.dropWhile isBlank = c :: rest from ht, List.head_cons] at hc
    exact ⟨c, rest, rfl, hc⟩

theorem trimStart_of_allBlank {text : Text} (h : allBlank text = true) : trimStart text = [] :=
  List.dropWhile_eq_nil_iff.mpr (List.all_eq_true.mp h)

/-- A text in front of which a boundary may be asked for starts with white space, so a flush text
has a gap in front of it there. -/
theorem ne_nil_of_atBoundary {gap text : Text} (hb : Cursor.atBoundary (gap ++ text) = true)
    (h : IsFlush text) : gap ≠ [] := by
  rintro rfl
  obtain ⟨c, rest, rfl, hc⟩ := h
  simp [Cursor.atBoundary, hc] at hb

theorem atBoundary_append {gap : Text} (hgap : allBlank gap = true) (hne : gap ≠ [])
    (text : Text) : Cursor.atBoundary (gap ++ text) = true := by
  obtain ⟨c, rest, rfl⟩ := List.exists_cons_of_ne_nil hne
  exact List.all_eq_true.mp hgap c (List.mem_cons_self ..)

theorem atBoundary_append_append {rest suffix : Text} (hrest : Cursor.atBoundary rest = true)
    (hsuffix : Cursor.atBoundary suffix = true) : Cursor.atBoundary (rest ++ suffix) = true := by
  cases rest with
  | nil => exact hsuffix
  | cons c rest => exact hrest

theorem atBoundary_of_allBlank {text : Text} (h : allBlank text = true) :
    Cursor.atBoundary text = true := by
  cases text with
  | nil => rfl
  | cons c rest => exact List.all_eq_true.mp h c (List.mem_cons_self ..)

/-! ## Trimming at the end -/

theorem trimEnd_append {gap : Text} (hgap : allBlank gap = true) (text : Text) :
    trimEnd (text ++ gap) = trimEnd text := by
  rw [trimEnd, trimEnd, List.reverse_append,
    List.dropWhile_append_of_pos fun c hc =>
      List.all_eq_true.mp hgap c (List.mem_reverse.mp hc)]

theorem trimEnd_append_of_not {text : Text} (h : allBlank text = false) (before : Text) :
    trimEnd (before ++ text) = before ++ trimEnd text := by
  have hne : text.reverse.dropWhile isBlank ≠ [] := by
    intro hnil
    have hall : allBlank text = true := List.all_eq_true.mpr fun c hc =>
      List.dropWhile_eq_nil_iff.mp hnil c (List.mem_reverse.mpr hc)
    rw [h] at hall
    cases hall
  rw [trimEnd, trimEnd, List.reverse_append, List.dropWhile_append, if_neg (by simpa using hne)]
  simp

theorem trimEnd_of_allBlank {text : Text} (h : allBlank text = true) : trimEnd text = [] :=
  trimEnd_append h []

theorem trimEnd_trimEnd (text : Text) : trimEnd (trimEnd text) = trimEnd text :=
  List.rdropWhile_idempotent isBlank text

/-- Trimming leaves no white space at the end. -/
theorem isBlank_of_mem_getLast?_trimEnd {text : Text} {c : Char}
    (hc : c ∈ (trimEnd text).getLast?) : isBlank c = false := by
  have hne : List.rdropWhile isBlank text ≠ [] := by
    intro hnil
    rw [show trimEnd text = [] from hnil] at hc
    cases hc
  have hlast := List.rdropWhile_last_not isBlank text hne
  rw [show trimEnd text = List.rdropWhile isBlank text from rfl, List.getLast?_eq_some_getLast hne,
    Option.mem_some_iff] at hc
  simpa [hc] using hlast

/-- A character that is no white space is not trimmed. -/
theorem trimEnd_cons {c : Char} (hc : isBlank c = false) (text : Text) :
    trimEnd (c :: text) = c :: trimEnd text := by
  cases h : allBlank text with
  | true =>
    have hsingle : trimEnd [c] = [c] := by simp [trimEnd, hc]
    rw [← List.singleton_append, trimEnd_append h, trimEnd_of_allBlank h, hsingle]
  | false => exact trimEnd_append_of_not h [c]

/-- A text is its trimmed form and a run of white space. -/
theorem eq_trimEnd_append (text : Text) :
    ∃ gap, text = trimEnd text ++ gap ∧ allBlank gap = true := by
  refine ⟨(text.reverse.takeWhile isBlank).reverse, ?_, ?_⟩
  · rw [trimEnd, ← List.reverse_append, List.takeWhile_append_dropWhile, List.reverse_reverse]
  · rw [allBlank, List.all_reverse]
    exact List.all_takeWhile

/-- White space at the end of a text does not matter to its trimmed form. -/
theorem trim_append {gap : Text} (hgap : allBlank gap = true) (text : Text) :
    trim (text ++ gap) = trim text := by
  cases h : allBlank text with
  | true =>
    have hall : allBlank (text ++ gap) = true := by rw [allBlank_append, h, hgap, Bool.and_self]
    rw [trim, trim, trimStart_of_allBlank hall, trimStart_of_allBlank h]
  | false =>
    have hstart : trimStart (text ++ gap) = trimStart text ++ gap := by
      conv_lhs => rw [← leading_append_trimStart text, List.append_assoc]
      exact trimStart_append_of_flush (allBlank_leading text) ((isFlush_trimStart h).append gap)
    rw [trim, hstart, trimEnd_append hgap, trim]

/-- A text whose last character is no white space is trimmed. -/
theorem trimEnd_eq_self {text : Text} (h : ∀ c ∈ text.getLast?, isBlank c = false) :
    trimEnd text = text := by
  rcases List.eq_nil_or_concat text with rfl | ⟨init, c, rfl⟩
  · rfl
  · rw [List.concat_eq_append] at h ⊢
    have hc : isBlank c = false := h c (by simp)
    simp [trimEnd, hc]

/-! ## The first chunk -/

/-- The first run of characters without white space. -/
def chunk (text : Text) : Text :=
  (trimStart text).takeWhile fun c => !isBlank c

/-- What follows the first run of characters without white space. -/
def afterChunk (text : Text) : Text :=
  (trimStart text).dropWhile fun c => !isBlank c

theorem eq_leading_append_chunk (text : Text) :
    text = leading text ++ (chunk text ++ afterChunk text) := by
  rw [chunk, afterChunk, List.takeWhile_append_dropWhile, leading_append_trimStart]

/-- A line is taken apart at its first chunk. -/
theorem eq_of_chunk {text run : Text} (h : chunk text = run) :
    text = leading text ++ run ++ afterChunk text := by
  rw [← h, List.append_assoc]
  exact eq_leading_append_chunk text

theorem atBoundary_afterChunk (text : Text) : Cursor.atBoundary (afterChunk text) = true := by
  cases h : afterChunk text with
  | nil => rfl
  | cons c rest =>
    have hc := List.head_dropWhile_not (fun c => !isBlank c) (l := trimStart text) (by
      rw [show (trimStart text).dropWhile _ = c :: rest from h]
      simp)
    simpa [show (trimStart text).dropWhile (fun c => !isBlank c) = c :: rest from h,
      Cursor.atBoundary] using hc

end Text

/-! ## The extent of a line -/

namespace Cursor

/-- The extent of a line that is not blank goes up to the end of the trimmed line. -/
theorem extent_of_not {text : Text} (h : allBlank text = false) :
    extent text = ⟨byteLength (leading text), byteLength (trimEnd text)⟩ := by
  have hflush := isFlush_trimStart h
  have htrim : trimEnd text = leading text ++ trim text := by
    conv_lhs => rw [← leading_append_trimStart text]
    rw [trimEnd_append_of_not hflush.allBlank_eq_false, trim]
  rw [extent, h, htrim, byteLength_append]
  simp

/-- The extent of a line ends with the content of its last part. -/
theorem extent_stop_append (before : Text) {text : Text} (h : allBlank text = false) :
    (extent (before ++ text)).stop = byteLength (before ++ trimEnd text) := by
  have hnot : allBlank (before ++ text) = false := by
    rw [allBlank_append, h, Bool.and_false]
  rw [extent_of_not hnot, trimEnd_append_of_not h]

/-- The extent of a line moves along when a part of it is replaced, if neither the part nor its
replacement has white space at an end. -/
theorem extent_replace (before : Text) {old new : Text} (after : Text) (hold : IsFlush old)
    (hnew : IsFlush new) (holdEnd : trimEnd old = old) (hnewEnd : trimEnd new = new) :
    extent (before ++ new ++ after) =
      ⟨(extent (before ++ old ++ after)).start,
        (extent (before ++ old ++ after)).stop + byteLength new - byteLength old⟩ := by
  -- The leading white space is in `before`, whatever the part is.
  have hleading : ∀ {part : Text}, IsFlush part →
      leading (before ++ (part ++ after)) = leading before := by
    intro part hpart
    by_cases hbefore : allBlank before = true
    · have hall : leading before = before := by
        have hsplit := leading_append_trimStart before
        rwa [trimStart_of_allBlank hbefore, List.append_nil] at hsplit
      rw [leading_append_of_flush hbefore (hpart.append after), hall]
    · have hflush := isFlush_trimStart (by simpa using hbefore)
      conv_lhs => rw [← leading_append_trimStart before, List.append_assoc]
      exact leading_append_of_flush (allBlank_leading before) (hflush.append _)
  have hblank : ∀ {part : Text}, IsFlush part → allBlank (before ++ (part ++ after)) = false := by
    intro part hpart
    rw [allBlank_append, (hpart.append after).allBlank_eq_false, Bool.and_false]
  -- Only the white space at the end of `after` is trimmed, or all of `after` if it is blank.
  have htrim : ∀ {part : Text}, IsFlush part → trimEnd part = part →
      byteLength (trimEnd (before ++ (part ++ after))) =
        byteLength before + byteLength part + byteLength (trimEnd after) := by
    intro part hpart hend
    have hnot : allBlank (part ++ after) = false := by
      rw [allBlank_append, hpart.allBlank_eq_false, Bool.false_and]
    rw [trimEnd_append_of_not hnot, byteLength_append, Nat.add_assoc]
    cases hafter : allBlank after with
    | true => rw [trimEnd_append hafter, hend, trimEnd_of_allBlank hafter, byteLength_nil,
        Nat.add_zero]
    | false => rw [trimEnd_append_of_not hafter, byteLength_append]
  rw [List.append_assoc, List.append_assoc, extent_of_not (hblank hold),
    extent_of_not (hblank hnew), htrim hold holdEnd, htrim hnew hnewEnd, hleading hold,
    hleading hnew]
  simp only [Span.mk.injEq, true_and]
  omega

end Cursor

end ItemFilter
