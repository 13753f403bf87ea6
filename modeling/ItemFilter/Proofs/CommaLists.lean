import ItemFilter.Config
import ItemFilter.Proofs.Trim

/-!
# Lists with commas

A list of names is read by taking it apart at the commas, trimming the parts and leaving out those
of which nothing is left. So a name that is read is not empty, has no white space at its ends and no
comma in it, and this is all there is to say: names of this form are read back from the list that
shows them, with a comma and a space between neighbours. The comma ends a part wherever it stands,
and the space behind it is trimmed.

## Main definitions

* `Text.IsItem`: a name that can stand in a list
* `shownNames`: the list that shows names

## Main results

* `Text.pieces_eq_splitOn`: pieces are what a list is split into
* `parseNames_append`: a list is read part by part
* `isItem_of_mem_parseNames`: the names that are read from a list
* `parseNames_shownNames`: names are read back from the list that shows them
-/

namespace ItemFilter

open Text

namespace Text

/-! ## Pieces -/

variable {separator c : Char} {text piece : Text}

theorem pieces_eq_splitOn (separator : Char) (text : Text) :
    pieces separator text = text.splitOn separator := by
  induction text with
  | nil => rfl
  | cons c text ih =>
    rw [pieces, List.splitOn_cons_eq_if_modifyHead, ih]
    by_cases hc : c = separator
    · simp [hc]
    · obtain ⟨piece, rest, hpieces⟩ := List.exists_cons_of_ne_nil (text.splitOn_ne_nil separator)
      simp [hc, hpieces]

/-- No piece has a separator in it. -/
theorem notMem_of_mem_pieces (h : piece ∈ pieces separator text) : separator ∉ piece := by
  -- Induction on the text, whose first character is at the front of the first piece.
  induction text generalizing piece with
  | nil =>
    obtain rfl := List.mem_singleton.mp h
    exact List.not_mem_nil
  | cons c text ih =>
    rw [pieces] at h
    split at h
    · rcases List.mem_cons.mp h with rfl | h
      · exact List.not_mem_nil
      · exact ih h
    · next hc =>
      have hne : separator ≠ c := Ne.symm hc
      split at h
      · obtain rfl := List.mem_singleton.mp h
        simpa using hne
      · next first rest hpieces =>
        rw [hpieces] at ih
        rcases List.mem_cons.mp h with rfl | h
        · rw [List.mem_cons, not_or]
          exact ⟨hne, ih (List.mem_cons_self ..)⟩
        · exact ih (List.mem_cons_of_mem first h)

/-! ## Items -/

/-- A name that can stand in a list. -/
structure IsItem (name : Text) : Prop where
  /-- There is a character. -/
  ne_nil : name ≠ []
  /-- There is no white space at the start. -/
  head : ∀ c ∈ name.head?, isBlank c = false
  /-- There is no white space at the end. -/
  last : ∀ c ∈ name.getLast?, isBlank c = false
  /-- There is no comma. -/
  comma : ',' ∉ name

theorem IsItem.trim_eq {name : Text} (h : name.IsItem) : trim name = name := by
  obtain ⟨c, rest, rfl⟩ := List.exists_cons_of_ne_nil h.ne_nil
  have hflush : IsFlush (c :: rest) := isFlush_cons.mpr (h.head c rfl)
  rw [trim, hflush.trimStart, trimEnd_eq_self h.last]

/-- What is left of a text without commas, if anything is left, can stand in a list. -/
theorem isItem_trim (hcomma : ',' ∉ text) (hne : trim text ≠ []) : IsItem (trim text) where
  ne_nil := hne
  head := by
    have hblank : allBlank text = false := by
      by_contra hblank
      rw [Bool.not_eq_false] at hblank
      exact hne (by rw [trim, trimStart_of_allBlank hblank]; rfl)
    obtain ⟨c, rest, hstart, hc⟩ := isFlush_trimStart hblank
    rw [trim, hstart, trimEnd_cons hc, List.head?_cons]
    rintro d ⟨⟩
    exact hc
  last := fun c hc => isBlank_of_mem_getLast?_trimEnd hc
  comma hmem := by
    obtain ⟨gap, htrim, -⟩ := eq_trimEnd_append (trimStart text)
    apply hcomma
    rw [← leading_append_trimStart text, htrim]
    exact List.mem_append_right _ (List.mem_append_left _ hmem)

/-- White space in front of a text does not matter to its trimmed form. -/
theorem trim_cons_of_isBlank (hc : isBlank c = true) (text : Text) :
    trim (c :: text) = trim text := by
  rw [trim, trim, ← List.singleton_append, trimStart_append (by simp [allBlank, hc])]

end Text

/-! ## Lists -/

variable {name text : Text} {names : List Text}

theorem isItem_of_mem_parseNames (h : name ∈ parseNames text) : name.IsItem := by
  obtain ⟨hmem, hne⟩ := List.mem_filter.mp h
  obtain ⟨piece, hpiece, rfl⟩ := List.mem_map.mp hmem
  exact isItem_trim (notMem_of_mem_pieces hpiece) (by simpa using hne)

/-- A list is read part by part. -/
theorem parseNames_append (left right : Text) :
    parseNames (left ++ ',' :: right) = parseNames left ++ parseNames right := by
  simp only [parseNames, pieces_eq_splitOn, List.splitOn_append_cons_self, List.map_append,
    List.filter_append]

/-- A space in front of a list belongs to its first part, and is trimmed. -/
theorem parseNames_cons_space (text : Text) : parseNames (' ' :: text) = parseNames text := by
  obtain ⟨piece, rest, hpieces⟩ := List.exists_cons_of_ne_nil (text.splitOn_ne_nil ',')
  have hfirst : (' ' :: text).splitOn ',' = (' ' :: piece) :: rest := by
    rw [List.splitOn_cons_eq_if_modifyHead, hpieces]
    rfl
  rw [parseNames, parseNames, pieces_eq_splitOn, pieces_eq_splitOn, hfirst, hpieces, List.map_cons,
    List.map_cons, trim_cons_of_isBlank (by decide)]

theorem parseNames_of_isItem (h : name.IsItem) : parseNames name = [name] := by
  rw [parseNames, pieces_eq_splitOn, List.splitOn_eq_singleton h.comma]
  simp [h.trim_eq, h.ne_nil]

/-- The list that shows names. -/
def shownNames (names : List Text) : String :=
  ", ".intercalate (names.map String.ofList)

/-- Names that can stand in a list are read back from it. -/
theorem parseNames_shownNames (h : ∀ name ∈ names, name.IsItem) :
    parseNames (shownNames names).toList = names := by
  -- Induction on the names: the first of them is in front of a comma, unless it is the only one.
  induction names with
  | nil => rfl
  | cons name names ih =>
    rw [List.forall_mem_cons] at h
    have hname := parseNames_of_isItem h.1
    cases names with
    | nil =>
      rw [shownNames, List.map_singleton, String.intercalate_singleton, String.toList_ofList, hname]
    | cons next rest =>
      have hshown : (shownNames (name :: next :: rest)).toList =
          name ++ ',' :: ' ' :: (shownNames (next :: rest)).toList := by
        simp [shownNames]
      rw [hshown, parseNames_append, parseNames_cons_space, hname, ih h.2, List.singleton_append]

end ItemFilter
