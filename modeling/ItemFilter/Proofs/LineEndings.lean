import ItemFilter.Proofs.Mending

/-!
# Line endings

A document has one line ending, that of its first line. A text is written back as it was if all of
its lines end that way; otherwise the endings that differ are made the same, and the lines stay what
they are as long as no carriage return is left in them.

## Main definitions

* `Text.EndsLinesWith`: a text of which every line ends the same way

## Main results

* `Document.contents_linesAfter`: with an ending, the lines of a text are the text just if they
  end with it
* `Document.contents_parse`: a text is written back as it was just if its line ends are alike
-/

namespace ItemFilter

namespace Text

/-- Every line feed of the text ends its line the given way, with a carriage return in front of it
or without one. -/
def EndsLinesWith (ending : LineEnding) (text : Text) : Prop :=
  ∀ before after, text = before ++ '\n' :: after →
    (before.getLast? = some '\r' ↔ ending = .crlf)

variable {ending : LineEnding}

theorem dropReturn_of_head?_ne {line : Text} (h : line.head? ≠ some '\r') :
    dropReturn line = line := by
  unfold dropReturn
  split
  · simp at h
  · rfl

theorem endsLinesWith_of_notMem {text : Text} (h : '\n' ∉ text) : EndsLinesWith ending text := by
  rintro before after rfl
  simp at h

/-- The line feeds of a text are that of its first line and those behind it. -/
theorem endsLinesWith_line {line text : Text} (hline : '\n' ∉ line) :
    EndsLinesWith ending (line ++ '\n' :: text) ↔
      (line.getLast? = some '\r' ↔ ending = .crlf) ∧ EndsLinesWith ending text := by
  -- What is in front of a line feed behind the first one ends with a carriage return or not, with
  -- the first line or without it.
  have hlast (before : Text) :
      (line ++ '\n' :: before).getLast? = some '\r' ↔ before.getLast? = some '\r' := by
    rw [List.getLast?_append_cons]
    cases before <;> simp [List.getLast?_cons_cons]
  constructor
  · intro h
    refine ⟨h line text rfl, ?_⟩
    rintro before after rfl
    rw [← hlast before]
    exact h (line ++ '\n' :: before) after (by simp)
  · rintro ⟨hfirst, hrest⟩ before after heq
    rcases split_append heq with ⟨between, rfl, -⟩ | ⟨between, rfl, hbehind⟩
    · -- The line feed would be a part of the first line.
      simp at hline
    · cases between with
      | nil => simpa using hfirst
      | cons c between =>
        obtain ⟨rfl, rfl⟩ := List.cons.inj hbehind
        rw [hlast]
        exact hrest between after rfl

end Text

namespace Document

open Text

variable {ending : LineEnding}

/-- A line is written with an ending in front of a text as it is read, just if it ends so. -/
theorem line_append_eq {front text rest : Text} :
    (dropReturn front).reverse ++ ending.characters ++ rest = front.reverse ++ '\n' :: text ↔
      (front.reverse.getLast? = some '\r' ↔ ending = .crlf) ∧ rest = text := by
  by_cases hcr : front.head? = some '\r'
  · obtain ⟨front, rfl⟩ := List.head?_eq_some_iff.mp hcr
    cases ending <;> simp [dropReturn, LineEnding.characters]
  · rw [dropReturn_of_head?_ne hcr, List.getLast?_reverse]
    cases ending <;> simp [hcr, LineEnding.characters]

/-- With an ending, the lines of a text are the text just if they end with it. -/
theorem contents_linesAfter {front text : Text} (hfront : '\n' ∉ front) {finalNewline : Bool}
    (hfinal : front ++ text ≠ [] → finalNewline = (text.getLast? == some '\n')) :
    contents ⟨linesAfter front text, ending, finalNewline⟩ = front.reverse ++ text ↔
      EndsLinesWith ending (front.reverse ++ text) := by
  -- Induction on the text, the line it starts in being the one that is kept in reverse.
  induction text generalizing front with
  | nil =>
    have hends : EndsLinesWith ending (front.reverse ++ []) :=
      endsLinesWith_of_notMem (by simpa using hfront)
    refine iff_of_true ?_ hends
    rw [linesAfter]
    split
    · next hempty =>
      rw [contents_nil, List.isEmpty_iff.mp hempty]
      rfl
    · next hne =>
      obtain rfl : finalNewline = false := by simpa using hfinal (by simpa using hne)
      rw [contents_singleton, List.append_nil]
  | cons c text ih =>
    have hfinal := hfinal (by simp)
    rw [linesAfter]
    split
    · next hc =>
      subst hc
      have hended : linesAfter [] text ≠ [] ∨ finalNewline = true := by
        rcases eq_or_ne text [] with rfl | hne
        · exact Or.inr hfinal
        · exact Or.inl (linesAfter_ne_nil (Or.inr hne))
      have hrest (hne : text ≠ []) : finalNewline = (text.getLast? == some '\n') := by
        rwa [List.getLast?_cons_of_ne_nil hne] at hfinal
      rw [contents_cons _ ending hended, line_append_eq,
        endsLinesWith_line (by simpa using hfront)]
      exact and_congr_right' (ih List.not_mem_nil hrest)
    · next hc =>
      have hrest : finalNewline = (text.getLast? == some '\n') := by
        rw [hfinal]
        rcases eq_or_ne text [] with rfl | hne
        · simpa using hc
        · rw [List.getLast?_cons_of_ne_nil hne]
      have hfront : '\n' ∉ c :: front := by
        rw [List.mem_cons, not_or]
        exact ⟨fun h => hc h.symm, hfront⟩
      rw [List.append_cons front.reverse, ← List.reverse_cons]
      exact ih hfront fun _ => hrest

/-- The ending of a text is that of the line in front of its first line feed. -/
theorem endingAfter_append {line : Text} (hline : '\n' ∉ line) (text : Text)
    {previous : Option Char} :
    endingAfter previous (line ++ '\n' :: text) =
      if line.getLast?.or previous = some '\r' then .crlf else .lf := by
  induction line generalizing previous with
  | nil => rw [List.nil_append, endingAfter, if_pos rfl, List.getLast?_nil, Option.none_or]
  | cons c line ih =>
    rw [List.mem_cons, not_or] at hline
    rw [List.cons_append, endingAfter, if_neg fun hc => hline.1 hc.symm, ih hline.2,
      List.getLast?_cons]
    cases line.getLast? <;> rfl

/-- The lines of a text end with its ending just if they all end the same way. -/
theorem endsLinesWith_endingAfter {text : Text} :
    EndsLinesWith (endingAfter none text) text ↔
      EndsLinesWith .crlf text ∨ EndsLinesWith .lf text := by
  constructor
  · intro h
    cases hending : endingAfter none text with
    | crlf => exact Or.inl (hending ▸ h)
    | lf => exact Or.inr (hending ▸ h)
  · intro h
    by_cases hmem : '\n' ∈ text
    · obtain ⟨line, rest, rfl, hline⟩ := List.eq_append_cons_of_mem hmem
      rw [endingAfter_append hline, Option.or_none]
      rcases h with h | h
      · rwa [if_pos ((h line rest rfl).mpr rfl)]
      · rwa [if_neg fun hcr => nomatch (h line rest rfl).mp hcr]
    · exact endsLinesWith_of_notMem hmem

theorem contents_parse {text : Text} :
    (parse text).contents = text ↔ EndsLinesWith .crlf text ∨ EndsLinesWith .lf text := by
  rw [← endsLinesWith_endingAfter]
  exact contents_linesAfter List.not_mem_nil fun _ => rfl

/-- A text is written back as it was just if its line feeds all follow a carriage return or none of
them does. A text whose line ends differ is not, but what is written has the same lines, the same
ending and the same end, unless a carriage return is left in one of the lines. -/
theorem parse_roundTrip (text : Text) :
    ((parse text).contents = text ↔
      (∀ before after, text = before ++ '\n' :: after → before.getLast? = some '\r') ∨
      ∀ before after, text = before ++ '\n' :: after → before.getLast? ≠ some '\r') ∧
    ((∀ line ∈ (parse text).lines, '\r' ∉ line) →
      parse (parse text).contents = parse text) := by
  constructor
  · rw [contents_parse]
    simp [EndsLinesWith]
  · intro hlines
    exact parse_contents (isProper_parse text) fun line hmem =>
      (unbroken_iff_of_mem_lines hmem).mpr (hlines line hmem)

/-- A text with both kinds of line ends is not written back, but its lines are. -/
theorem parse_roundTrip_mixed :
    (parse "Show\r\n\nHide".toList).contents ≠ "Show\r\n\nHide".toList ∧
      parse (parse "Show\r\n\nHide".toList).contents = parse "Show\r\n\nHide".toList := by
  have h := parse_roundTrip "Show\r\n\nHide".toList
  refine ⟨fun heq => ?_, h.2 (by decide)⟩
  rcases h.1.mp heq with hends | hends
  · exact absurd (hends "Show\r\n".toList "Hide".toList rfl) (by decide)
  · exact absurd rfl (hends "Show\r".toList "\nHide".toList rfl)

end Document

end ItemFilter
