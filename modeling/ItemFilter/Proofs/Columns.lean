import ItemFilter.Span
import ItemFilter.Text.Bytes

/-!
# Cutting at columns

Cutting, slicing and replacing by columns, put in terms of the characters: a line is cut between
two columns exactly where it is the concatenation of three texts with these columns between them.

## Main definitions

* `Text.spanOf`: the columns of a text that stands behind another
* `Text.Spans`: the columns of some characters of a text

## Main results

* `Text.cut?_eq_some_iff`, `Text.slice?_eq_some_iff`: what a cut at two columns is, and a slice
* `Text.slice?_append`, `Text.replace?_append`: slicing and replacing the middle of three texts
-/

namespace ItemFilter.Text

/-- The columns of a text that stands behind another. -/
def spanOf (before text : Text) : Span :=
  ⟨byteLength before, byteLength (before ++ text)⟩

@[simp] theorem spanOf_start (before text : Text) :
    (spanOf before text).start = byteLength before := rfl

@[simp] theorem spanOf_stop (before text : Text) :
    (spanOf before text).stop = byteLength before + byteLength text :=
  byteLength_append before text

@[simp] theorem spanOf_length (before text : Text) :
    (spanOf before text).length = byteLength text := by
  rw [Span.length, spanOf_start, spanOf_stop, Nat.add_sub_cancel_left]

/-- A text is cut at two columns into three parts with the columns between them. -/
theorem cut?_eq_some_iff {start stop : Nat} {text before inside after : Text} :
    cut? start stop text = some (before, inside, after) ↔
      text = before ++ (inside ++ after) ∧ byteLength before = start ∧
        byteLength (before ++ inside) = stop := by
  simp only [cut?]
  constructor
  · intro h
    split at h
    · next hle =>
      -- the text is split at the first column, and what is behind it once more
      obtain ⟨⟨b, rest⟩, hfirst, hrest⟩ := Option.bind_eq_some_iff.mp h
      obtain ⟨⟨i, a⟩, hsecond, heq⟩ := Option.map_eq_some_iff.mp hrest
      simp only [Prod.mk.injEq] at heq
      obtain ⟨rfl, rfl, rfl⟩ := heq
      obtain ⟨rfl, rfl⟩ := splitAt?_eq_some_iff.mp hfirst
      obtain ⟨rfl, hlen⟩ := splitAt?_eq_some_iff.mp hsecond
      refine ⟨rfl, rfl, ?_⟩
      rw [byteLength_append]
      omega
    · cases h
  · rintro ⟨rfl, rfl, rfl⟩
    rw [byteLength_append, if_pos (Nat.le_add_right ..), Nat.add_sub_cancel_left,
      splitAt?_eq_some_iff.mpr ⟨rfl, rfl⟩, Option.bind_some,
      splitAt?_eq_some_iff.mpr ⟨rfl, rfl⟩]
    rfl

theorem cut?_append (before inside after : Text) :
    cut? (byteLength before) (byteLength (before ++ inside)) (before ++ inside ++ after) =
      some (before, inside, after) :=
  cut?_eq_some_iff.mpr ⟨List.append_assoc .., rfl, rfl⟩

/-- A text with a slice has something in front of it and something behind it. -/
theorem slice?_eq_some_iff {start stop : Nat} {text inside : Text} :
    slice? start stop text = some inside ↔
      ∃ before after, text = before ++ (inside ++ after) ∧ byteLength before = start ∧
        byteLength (before ++ inside) = stop := by
  constructor
  · intro h
    obtain ⟨⟨before, found, after⟩, hcut, rfl⟩ := Option.map_eq_some_iff.mp h
    exact ⟨before, after, cut?_eq_some_iff.mp hcut⟩
  · rintro ⟨before, after, h⟩
    exact Option.map_eq_some_iff.mpr ⟨_, cut?_eq_some_iff.mpr h, rfl⟩

@[simp] theorem slice?_append (before inside after : Text) :
    slice? (byteLength before) (byteLength (before ++ inside)) (before ++ inside ++ after) =
      some inside := by
  rw [slice?, cut?_append]
  rfl

@[simp] theorem replace?_append (before inside after new : Text) :
    replace? (byteLength before) (byteLength (before ++ inside)) new (before ++ inside ++ after) =
      some (before ++ new ++ after) := by
  rw [replace?, cut?_append]
  rfl

/-- What stands in two parts behind each other stands in the first one or in the second one. -/
theorem split_append {α : Type} {first second left right : List α} {a : α}
    (h : first ++ second = left ++ a :: right) :
    (∃ middle, first = left ++ a :: middle ∧ right = middle ++ second) ∨
      ∃ middle, left = first ++ middle ∧ second = middle ++ a :: right := by
  rcases List.append_eq_append_iff.mp h with ⟨middle, hleft, hsecond⟩ | ⟨middle, hfirst, hright⟩
  · exact Or.inr ⟨middle, hleft, hsecond⟩
  · cases middle with
    | nil =>
      rw [List.append_nil] at hfirst
      exact Or.inr ⟨[], by rw [hfirst, List.append_nil], hright.symm⟩
    | cons b middle =>
      obtain ⟨rfl, rfl⟩ := List.cons.inj hright
      exact Or.inl ⟨middle, hfirst, rfl⟩

/-- Of two texts in front of a line, the shorter one is in front of the longer one. -/
theorem exists_append_of_le {left right first rest : Text}
    (h : left ++ right = first ++ rest) (hle : byteLength left ≤ byteLength first) :
    ∃ middle, first = left ++ middle ∧ right = middle ++ rest := by
  rcases List.append_eq_append_iff.mp h with ⟨middle, hfirst, hright⟩ | ⟨middle, hleft, hrest⟩
  · exact ⟨middle, hfirst, hright⟩
  · -- They are as long as each other here, with nothing in between.
    have hnil : middle = [] := by
      rw [hleft, byteLength_append] at hle
      rw [← byteLength_eq_zero_iff]
      omega
    rw [hnil, List.append_nil] at hleft
    rw [hnil, List.nil_append] at hrest
    exact ⟨[], by rw [hleft, List.append_nil], by rw [List.nil_append, hrest]⟩

/-! ## Spans of a text -/

/-- A span of a text covers some of its characters: the columns where they start and end. -/
def Spans (text : Text) (span : Span) : Prop :=
  ∃ before inside after, inside ≠ [] ∧ text = before ++ inside ++ after ∧
    span = spanOf before inside

theorem spans_append (before : Text) {inside : Text} (after : Text) (h : inside ≠ []) :
    Spans (before ++ inside ++ after) (spanOf before inside) :=
  ⟨before, inside, after, h, rfl, rfl⟩

/-- A span of a text is not empty and ends in the text. -/
theorem Spans.bounds {text : Text} {span : Span} (h : Spans text span) :
    span.start < span.stop ∧ span.stop ≤ byteLength text := by
  obtain ⟨before, inside, after, hne, rfl, rfl⟩ := h
  have hpos : byteLength inside ≠ 0 := by simpa using hne
  simp only [spanOf_start, spanOf_stop, byteLength_append]
  omega

end ItemFilter.Text
