import Mathlib.Data.List.Basic
import Mathlib.Data.List.Induction
import Mathlib.Order.Bounds.Basic
import Mathlib.Order.MinMax
import ItemFilter.Keyword.Suggestion

/-!
# Suggested keywords

The distance of a word from a keyword is computed row by row. It is the least number of characters
to delete, insert or replace. The keyword that is suggested is the first one in the table that no
keyword is closer than, and it has to be close enough for its own length. A keyword that comes later
in the table is therefore not suggested if a shorter one is as close and not close enough.

## Main definitions

* `Text.EditsTo`: turning a word into another by so many edits
* `Keyword.IsFirstClosest`: the first of the keywords that are closest to a word

## Main results

* `Text.isLeast_distance`: the edit distance is the least number of edits
* `Keyword.suggest?_eq_some_iff`: when a keyword is suggested
* `Keyword.suggest?_closest`: what is suggested, and which words have no suggestion
-/

namespace ItemFilter

open Text

/-! ## Edits of a word -/

namespace Text

/-- A word is turned into another by `n` edits, each of which deletes, inserts or replaces one
character. -/
inductive EditsTo : Nat → Text → Text → Prop
  /-- The empty word is there already. -/
  | nil : EditsTo 0 [] []
  /-- A character is kept. -/
  | keep {n : Nat} {word target : Text} (c : Char) (h : EditsTo n word target) :
    EditsTo n (c :: word) (c :: target)
  /-- A character is deleted. -/
  | delete {n : Nat} {word target : Text} (c : Char) (h : EditsTo n word target) :
    EditsTo (n + 1) (c :: word) target
  /-- A character is inserted. -/
  | insert {n : Nat} {word target : Text} (d : Char) (h : EditsTo n word target) :
    EditsTo (n + 1) word (d :: target)
  /-- A character is replaced by another. -/
  | replace {n : Nat} {word target : Text} (c d : Char) (h : EditsTo n word target) :
    EditsTo (n + 1) (c :: word) (d :: target)

/-- As many edits as the distance are enough. -/
theorem editsTo_distance (word target : Text) : EditsTo (distance word target) word target := by
  -- The recurrence of the distance says which edit comes first.
  induction word generalizing target with
  | nil =>
    induction target with
    | nil => exact .nil
    | cons d target ih => simpa using ih.insert d
  | cons c word ihword =>
    induction target with
    | nil => simpa using (ihword []).delete c
    | cons d target ihtarget =>
      rw [distance_cons_cons]
      split
      · next h => exact h ▸ (ihword target).keep c
      · rcases min_choice (distance word target)
          (min (distance word (d :: target)) (distance (c :: word) target)) with h | h
        · rw [h]
          exact (ihword target).replace c d
        · rcases min_choice (distance word (d :: target)) (distance (c :: word) target) with h' | h'
          · rw [h, h']
            exact (ihword (d :: target)).delete c
          · rw [h, h']
            exact ihtarget.insert d

theorem distance_comm (word target : Text) : distance word target = distance target word := by
  induction word generalizing target with
  | nil => simp
  | cons c word ihword =>
    induction target with
    | nil => simp
    | cons d target ihtarget =>
      rw [distance_cons_cons, distance_cons_cons, ihword target, ihword (d :: target), ihtarget,
        min_comm (distance (d :: target) word)]
      simp only [eq_comm]

/-- A character in front of the word adds at most one edit, if one in front of the target saves at
most one. -/
theorem distance_cons_left_le_of {word : Text}
    (h : ∀ d target, distance word target ≤ distance word (d :: target) + 1) (c : Char)
    (target : Text) : distance (c :: word) target ≤ distance word target + 1 := by
  cases target with
  | nil => simp
  | cons d target =>
    rw [distance_cons_cons]
    split
    · exact h d target
    · exact Nat.succ_le_succ ((min_le_right _ _).trans (min_le_left _ _))

/-- A character in front of the target saves at most one edit. -/
theorem distance_le_cons_right (word : Text) (d : Char) (target : Text) :
    distance word target ≤ distance word (d :: target) + 1 := by
  induction word generalizing d target with
  | nil =>
    simp only [distance_nil_left, List.length_cons]
    omega
  | cons c word ih =>
    have hword := distance_cons_left_le_of ih c target
    have htarget := ih d target
    rw [distance_cons_cons]
    split <;> omega

theorem distance_cons_left_le (c : Char) (word target : Text) :
    distance (c :: word) target ≤ distance word target + 1 :=
  distance_cons_left_le_of (distance_le_cons_right word) c target

theorem distance_cons_right_le (word : Text) (d : Char) (target : Text) :
    distance word (d :: target) ≤ distance word target + 1 := by
  rw [distance_comm word (d :: target), distance_comm word target]
  exact distance_cons_left_le d target word

/-- Fewer edits than the distance are not enough. -/
theorem EditsTo.distance_le {n : Nat} {word target : Text} (h : EditsTo n word target) :
    distance word target ≤ n := by
  induction h with
  | nil => simp
  | keep c h ih => rwa [distance_cons_cons, if_pos rfl]
  | delete c h ih => exact (distance_cons_left_le c _ _).trans (Nat.succ_le_succ ih)
  | insert d h ih => exact (distance_cons_right_le _ d _).trans (Nat.succ_le_succ ih)
  | replace c d h ih =>
    rw [distance_cons_cons]
    split
    · exact ih.trans (Nat.le_succ _)
    · exact Nat.succ_le_succ ((min_le_left _ _).trans ih)

/-- The edit distance is the least number of edits that turn one word into the other. -/
theorem isLeast_distance (word target : Text) :
    IsLeast {n | EditsTo n word target} (distance word target) :=
  ⟨editsTo_distance word target, fun _ h => h.distance_le⟩

end Text

/-! ## The closest keyword -/

namespace Keyword

theorem mem_all (keyword : Keyword) : keyword ∈ all := by
  cases keyword <;> decide

/-- A name is short or not: a word may be one edit away from a keyword, or two. -/
theorem tolerance_eq (keyword : Keyword) : keyword.tolerance = 1 ∨ keyword.tolerance = 2 := by
  cases keyword <;> decide

/-- The first keyword in the table that no keyword is closer to a word than. -/
structure IsFirstClosest (word : Text) (keyword : Keyword) : Prop where
  /-- Every keyword in front of it is farther from the word. -/
  exists_split : ∃ front rest, all = front ++ keyword :: rest ∧
    ∀ other ∈ front, keyword.distanceFrom word < other.distanceFrom word
  /-- No keyword is closer. -/
  le : ∀ other : Keyword, keyword.distanceFrom word ≤ other.distanceFrom word

variable {word : Text} {keyword : Keyword}

/-- There is only one first closest keyword. -/
theorem IsFirstClosest.eq {other : Keyword} (h : IsFirstClosest word keyword)
    (h' : IsFirstClosest word other) : keyword = other := by
  obtain ⟨front, rest, hall, hfront⟩ := h.exists_split
  obtain ⟨front', rest', hall', hfront'⟩ := h'.exists_split
  -- If one of them came first, the other would be farther from the word.
  rcases List.append_eq_append_iff.mp (hall.symm.trans hall') with
    ⟨_ | ⟨k, middle⟩, hsplit, hrest⟩ | ⟨_ | ⟨k, middle⟩, hsplit, hrest⟩
  · exact (List.cons.inj hrest).1
  · obtain rfl := (List.cons.inj hrest).1
    exact absurd (h.le other) (hfront' keyword (by simp [hsplit])).not_ge
  · exact (List.cons.inj hrest).1.symm
  · obtain rfl := (List.cons.inj hrest).1
    exact absurd (h'.le keyword) (hfront other (by simp [hsplit])).not_ge

/-- Going through keywords with the closest one so far ends with the first closest of them. -/
theorem exists_foldl_closer (word : Text) (first : Keyword) (keywords : List Keyword) :
    ∃ front rest, first :: keywords = front ++ keywords.foldl (closer word) first :: rest ∧
      (∀ other ∈ front,
        (keywords.foldl (closer word) first).distanceFrom word < other.distanceFrom word) ∧
      ∀ other ∈ rest,
        (keywords.foldl (closer word) first).distanceFrom word ≤ other.distanceFrom word := by
  -- Induction on the keywords from the left: a further one takes over only if it is closer.
  induction keywords using List.reverseRecOn with
  | nil => exact ⟨[], [], rfl, nofun, nofun⟩
  | append_singleton keywords last ih =>
    obtain ⟨front, rest, hall, hfront, hrest⟩ := ih
    rw [List.foldl_concat, closer]
    split
    · next hcloser =>
      refine ⟨first :: keywords, [], rfl, fun other hother => ?_, nofun⟩
      rw [hall] at hother
      rcases List.mem_append.mp hother with hother | hother
      · exact hcloser.trans (hfront other hother)
      · rcases List.mem_cons.mp hother with rfl | hother
        · exact hcloser
        · exact hcloser.trans_le (hrest other hother)
    · next hcloser =>
      refine ⟨front, rest ++ [last], ?_, hfront, fun other hother => ?_⟩
      · rw [← List.cons_append, hall, List.append_assoc, List.cons_append]
      · rcases List.mem_append.mp hother with hother | hother
        · exact hrest other hother
        · obtain rfl := List.mem_singleton.mp hother
          exact not_lt.mp hcloser

theorem isFirstClosest_closest (word : Text) : IsFirstClosest word (closest word) := by
  -- The first keyword of the table is where the search starts.
  have hclosest : closest word = all.tail.foldl (closer word) showBlock := by
    rw [closest, all, List.foldl_cons, closer, if_neg (lt_irrefl _), List.tail_cons]
  obtain ⟨front, rest, hall, hfront, hrest⟩ := exists_foldl_closer word showBlock all.tail
  rw [← hclosest] at hall hfront hrest
  refine ⟨⟨front, rest, hall, hfront⟩, fun other => ?_⟩
  have hmem : other ∈ front ++ closest word :: rest := hall ▸ other.mem_all
  rcases List.mem_append.mp hmem with hother | hother
  · exact (hfront other hother).le
  · rcases List.mem_cons.mp hother with rfl | hother
    · exact le_rfl
    · exact hrest other hother

/-! ## Suggestions -/

/-- The first closest keyword is suggested, if it is close enough for its length. -/
theorem suggest?_eq_some_iff : suggest? word = some keyword ↔
    IsFirstClosest word keyword ∧ keyword.distanceFrom word ≤ keyword.tolerance := by
  have hclosest := isFirstClosest_closest word
  simp only [suggest?, Option.ite_none_right_eq_some, Option.some.injEq]
  constructor
  · rintro ⟨hle, rfl⟩
    exact ⟨hclosest, hle⟩
  · rintro ⟨hfirst, hle⟩
    obtain rfl := hclosest.eq hfirst
    exact ⟨hle, rfl⟩

/-- Nothing is suggested if the first closest keyword is not close enough. -/
theorem IsFirstClosest.suggest?_eq_none_iff (h : IsFirstClosest word keyword) :
    suggest? word = none ↔ keyword.tolerance < keyword.distanceFrom word := by
  obtain rfl := (isFirstClosest_closest word).eq h
  simp [suggest?]

/-- A keyword is suggested only if it is close enough for its length and none is closer, the
distance being the least number of edits between the words in lower case. A word has no suggestion
if no keyword is close enough, or if the first closest keyword is two edits away and allows one,
while one that comes later in the table is two edits away and allows them. -/
theorem suggest?_closest (word : Text) :
    (∀ keyword : Keyword, IsLeast
      {n | EditsTo n (lowercase word) (lowercase keyword.name.toList)}
      (keyword.distanceFrom word)) ∧
    (∀ keyword, suggest? word = some keyword →
      keyword.distanceFrom word ≤ keyword.tolerance ∧
      ∀ other : Keyword, keyword.distanceFrom word ≤ other.distanceFrom word) ∧
    (suggest? word = none ↔
      (∀ keyword : Keyword, keyword.tolerance < keyword.distanceFrom word) ∨
      ∃ short long : Keyword, IsFirstClosest word short ∧
        short.distanceFrom word = 2 ∧ short.tolerance = 1 ∧
        long.distanceFrom word = 2 ∧ long.tolerance = 2) := by
  refine ⟨fun keyword => isLeast_distance _ _, fun keyword hsome => ?_, ?_, ?_⟩
  · obtain ⟨hfirst, hle⟩ := suggest?_eq_some_iff.mp hsome
    exact ⟨hle, hfirst.le⟩
  · intro hnone
    by_cases hfar : ∀ keyword : Keyword, keyword.tolerance < keyword.distanceFrom word
    · exact Or.inl hfar
    · refine Or.inr ?_
      push Not at hfar
      obtain ⟨long, hlong⟩ := hfar
      have hfirst := isFirstClosest_closest word
      have hshort := hfirst.suggest?_eq_none_iff.mp hnone
      have hle := hfirst.le long
      -- Only a distance of two is too far for one keyword and not for another.
      rcases (closest word).tolerance_eq with h | h <;> rcases long.tolerance_eq with h' | h'
      · omega
      · exact ⟨closest word, long, hfirst, by omega, h, by omega, h'⟩
      · omega
      · omega
  · rintro (hfar | ⟨short, -, hfirst, hdistance, htolerance, -⟩)
    · exact (isFirstClosest_closest word).suggest?_eq_none_iff.mpr (hfar _)
    · exact hfirst.suggest?_eq_none_iff.mpr (by omega)

set_option maxRecDepth 4000 in
/-- A word two edits away from `Hide` and from `Height` has no suggestion, although `Height` is
close enough for its length. -/
theorem exists_unsuggested :
    suggest? "Higt".toList = none ∧
      ∃ keyword : Keyword, keyword.distanceFrom "Higt".toList ≤ keyword.tolerance :=
  ⟨by decide, height, by decide⟩

end Keyword

end ItemFilter
