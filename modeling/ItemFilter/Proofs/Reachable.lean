import Mathlib.Logic.Relation
import ItemFilter.Proofs.KeywordLine
import ItemFilter.Proofs.HexExpansion

/-!
# Reachable cursors

A line is read by steps of a cursor: a token of a class is read, whether or not there is one, or the
colour that comes next is expanded. The expansion is the only step that changes the line, and the
only one that goes back. Whatever the steps are, the cursor knows the extent of the line as it is
now, so nothing that is cut out of the line by columns can lie outside of it or end inside a
character.

## Main definitions

* `Cursor.IsTokenClass`: the matchers that lines are read with
* `Cursor.Step`, `Cursor.Reachable`: a step of a cursor, and the cursors that steps lead to
* `Cursor.IsSound`: a cursor in front of which every cut succeeds
* `Cursor.Finds`: steps that leave the line as it is, and the spans of what they read

## Main results

* `Cursor.Reachable.content_eq`: a reachable cursor knows the extent of its line
* `Cursor.Reachable.isSound`: every cut at a reachable cursor succeeds
-/

namespace ItemFilter

open Text
open Cursor hiding read

variable {α : Type}

namespace Cursor

/-! ## Steps -/

/-- The matchers that lines are read with. -/
inductive IsTokenClass : {α : Type} → Matcher α → Prop
  | word : IsTokenClass matchWord
  | number : IsTokenClass matchNumber
  | boolean : IsTokenClass matchBoolean
  | operator : IsTokenClass matchOperator
  | string : IsTokenClass matchString
  | hex : IsTokenClass matchHex
  | comment : IsTokenClass matchComment

/-- A step of a cursor that reads a line. -/
inductive Step (cursor : Cursor) : Cursor → Prop
  /-- A token is read, or the cursor stays where it is. -/
  | read {α : Type} {m : Matcher α} (hm : IsTokenClass m) : Step cursor (read m cursor).2
  /-- A colour is expanded, if one comes next. -/
  | expandHex : Step cursor (Rule.expandHex cursor).2

/-- The cursors that lead from one to another by steps. -/
abbrev Reaches : Cursor → Cursor → Prop :=
  Relation.ReflTransGen Step

/-- The cursors that steps from the start of a line lead to. -/
def Reachable (line : Text) (cursor : Cursor) : Prop :=
  Reaches (atStart line) cursor

/-- A token is read, or the cursor stays where it is. -/
theorem read_cases (m : Matcher α) (cursor : Cursor) :
    read m cursor = (none, cursor) ∨
      ∃ token next, scan? m cursor = some (token, next) ∧ read m cursor = (some token, next) := by
  cases hscan : scan? m cursor with
  | none => exact Or.inl (read_of_scan?_eq_none hscan)
  | some found => exact Or.inr ⟨found.1, found.2, rfl, read_eq_some_iff.mpr hscan⟩

theorem text_read (m : Matcher α) (cursor : Cursor) : (read m cursor).2.text = cursor.text := by
  rcases read_cases m cursor with h | ⟨token, next, hscan, h⟩
  · rw [h]
  · rw [h, text_of_scan? hscan]

theorem content_read (m : Matcher α) (cursor : Cursor) :
    (read m cursor).2.content = cursor.content := by
  rcases read_cases m cursor with h | ⟨token, next, hscan, h⟩
  · rw [h]
  · rw [h]
    obtain ⟨-, -, -, -, -, -, rfl⟩ := scan?_eq_some_iff.mp hscan
    rfl

/-- A token covers characters of the line. -/
theorem spans_of_scan? {m : Matcher α} {cursor next : Cursor} {token : Token α}
    (h : scan? m cursor = some (token, next)) : cursor.text.Spans token.range := by
  obtain ⟨n, -, hne, -, hstart, hstop, -⟩ := scan?_eq_some_iff.mp h
  refine ⟨cursor.consumed ++ leading cursor.rest, (trimStart cursor.rest).take n,
    (trimStart cursor.rest).drop n, hne, ?_, ?_⟩
  · rw [List.append_assoc, List.take_append_drop, List.append_assoc, leading_append_trimStart,
      Cursor.text]
  · obtain ⟨value, ⟨start, stop⟩⟩ := token
    dsimp only at hstart hstop
    simp [spanOf, hstart, hstop, offset, Nat.add_assoc]

/-! ## The extent of the line -/

/-- The extent covers the line without the white space at its ends. -/
theorem slice?_extent (line : Text) :
    slice? (extent line).start (extent line).stop line = some (trim line) := by
  by_cases hblank : allBlank line = true
  · rw [extent, if_pos hblank, trim, trimStart_of_allBlank hblank]
    exact slice?_append [] [] line
  · obtain ⟨gap, hgap, -⟩ := eq_trimEnd_append (trimStart line)
    have hsplit : line = leading line ++ trim line ++ gap := by
      rw [List.append_assoc, trim, ← hgap, leading_append_trimStart]
    have hslice := slice?_append (leading line) (trim line) gap
    rw [← hsplit, byteLength_append] at hslice
    rw [extent, if_neg hblank]
    exact hslice

/-- A step keeps what the cursor knows about the extent of its line. -/
theorem Step.content_eq {cursor next : Cursor} (h : Step cursor next)
    (hcontent : cursor.content = extent cursor.text) : next.content = extent next.text := by
  cases h with
  | read hm => rw [content_read, text_read, hcontent]
  | expandHex =>
    rcases read_cases matchHex cursor with h | ⟨token, next, hscan, -⟩
    · rw [Rule.expandHex, Cursor.hex, h, hcontent]
    · obtain ⟨gap, lexeme, after, hrest, hgap, hspelled, hafter, -⟩ :=
        exists_spelled_of_scan? matchHex_reads hscan
      have hexpand := Rule.expandHex_of_spelled hrest hgap hspelled hafter
      have hsolid := HexColor.decimalText_solid (HexColor.channelsOf_ne_nil hspelled)
      have hline : cursor.text = cursor.consumed ++ gap ++ lexeme ++ after := by
        rw [Cursor.text, hrest]
        simp
      -- The part of the line that is replaced has no white space at an end, nor has the new one.
      rw [hexpand, Cursor.text, ← List.append_assoc, hcontent, hline]
      exact (extent_replace _ after (matchHex_reads.flush hspelled) hsolid.1
        (Spelling.hex_trimEnd hspelled) hsolid.2.1).symm

/-- Steps keep what the cursor knows about the extent of its line. -/
theorem Reaches.content_eq {cursor next : Cursor} (h : Reaches cursor next)
    (hcontent : cursor.content = extent cursor.text) : next.content = extent next.text := by
  -- Induction on the steps, the last of them split off.
  induction h with
  | refl => exact hcontent
  | tail _ hstep ih => exact hstep.content_eq ih

/-- A reachable cursor knows the extent of its line. -/
theorem Reachable.content_eq {line : Text} {cursor : Cursor} (h : Reachable line cursor) :
    cursor.content = extent cursor.text :=
  Reaches.content_eq h rfl

/-! ## Cuts -/

theorem length_le_of_matchTruth {text : Text} {n : Nat} {value : Bool}
    (h : matchTruth text = some (n, value)) : n ≤ text.length := by
  unfold matchTruth at h
  -- A name of so many letters was found at the start of the text.
  split at h
  · next htrue =>
    obtain ⟨rfl, -⟩ := Prod.mk.inj (Option.some.inj h)
    have hlength := sameIgnoringCase_length htrue
    rw [List.length_take] at hlength
    have hfour : "true".toList.length = 4 := rfl
    omega
  · split at h
    · next hfalse =>
      obtain ⟨rfl, -⟩ := Prod.mk.inj (Option.some.inj h)
      have hlength := sameIgnoringCase_length hfalse
      rw [List.length_take] at hlength
      have hfive : "false".toList.length = 5 := rfl
      omega
    · cases h

/-- No token is longer than the text it is found in. -/
theorem IsTokenClass.length_le {m : Matcher α} (hm : IsTokenClass m) {text : Text} {n : Nat}
    {value : α} (h : m text = some (n, value)) : n ≤ text.length := by
  have htake : ∀ (p : Char → Bool) (text : Text), (text.takeWhile p).length ≤ text.length :=
    fun p text => (List.takeWhile_prefix p).length_le
  cases hm with
  | word =>
    obtain ⟨rfl, -⟩ := Prod.mk.inj (Option.some.inj h)
    exact htake isWordChar text
  | number =>
    by_cases hminus : ∃ body, text = '-' :: body
    · obtain ⟨body, rfl⟩ := hminus
      rw [matchNumber_minus] at h
      split at h
      · cases h
      · obtain ⟨rfl, -⟩ := Prod.mk.inj (Option.some.inj h)
        have hbody := htake Char.isDigit body
        rw [List.length_cons]
        omega
    · rw [matchNumber_unsigned fun body hbody => hminus ⟨body, hbody⟩] at h
      split at h
      · cases h
      · obtain ⟨rfl, -⟩ := Prod.mk.inj (Option.some.inj h)
        exact htake Char.isDigit text
  | boolean =>
    unfold matchBoolean at h
    split at h
    · next body =>
      split at h
      · next k truth htruth =>
        split at h
        · next hquote =>
          obtain ⟨rfl, -⟩ := Prod.mk.inj (Option.some.inj h)
          -- the closing quote is behind the name
          obtain ⟨hlt, -⟩ := List.getElem?_eq_some_iff.mp hquote
          rw [List.length_cons]
          omega
        · cases h
      · cases h
    · exact length_le_of_matchTruth h
  | operator =>
    obtain ⟨op, hfound, hpair⟩ := Option.map_eq_some_iff.mp h
    obtain ⟨rfl, -⟩ := Prod.mk.inj hpair
    have hpre : op.spelling <+: text :=
      List.isPrefixOf_iff_prefix.mp (by simpa using List.find?_some hfound)
    exact hpre.length_le
  | string =>
    unfold matchString at h
    split at h
    · dsimp only at h
      split at h
      · next hlt =>
        obtain ⟨rfl, -⟩ := Prod.mk.inj (Option.some.inj h)
        rw [List.length_cons]
        omega
      · cases h
    · obtain ⟨rfl, -⟩ := Prod.mk.inj (Option.some.inj h)
      exact htake _ text
  | hex =>
    unfold matchHex at h
    split at h
    · next body =>
      dsimp only at h
      split at h
      · obtain ⟨rfl, -⟩ := Prod.mk.inj (Option.some.inj h)
        exact Nat.succ_le_succ (htake isHexDigit body)
      · cases h
    · cases h
  | comment =>
    unfold matchComment at h
    split at h
    · next body =>
      obtain ⟨rfl, -⟩ := Prod.mk.inj (Option.some.inj h)
      obtain ⟨gap, hgap, -⟩ := eq_trimEnd_append ('#' :: body)
      have hlength := congrArg List.length hgap
      rw [List.length_append] at hlength
      omega
    · cases h

/-- A cursor in front of which every cut succeeds: nothing that is cut out of the line lies outside
of it, or ends inside a character. -/
structure IsSound (cursor : Cursor) : Prop where
  /-- The line is cut where the cursor stands. -/
  splitAt?_offset :
    splitAt? cursor.offset cursor.text = some (cursor.consumed, cursor.rest)
  /-- The line is cut at both ends of its extent. -/
  slice?_content :
    slice? cursor.content.start cursor.content.stop cursor.text = some (trim cursor.text)
  /-- A lexeme is cut off the text in front of the cursor. -/
  length_le : ∀ {α : Type} {m : Matcher α} {n : Nat} {value : α}, IsTokenClass m →
    m (trimStart cursor.rest) = some (n, value) → n ≤ (trimStart cursor.rest).length
  /-- A token that is read is cut out of the line. -/
  spans : ∀ {α : Type} {m : Matcher α} {token : Token α} {next : Cursor}, IsTokenClass m →
    scan? m cursor = some (token, next) → cursor.text.Spans token.range
  /-- A colour that is read is cut out of the line to be replaced. -/
  cut?_hex : ∀ {token : Token Text} {next : Cursor}, scan? matchHex cursor = some (token, next) →
    ∃ before, cut? token.range.start token.range.stop next.consumed =
      some (before, token.value, [])

/-- Every cut at a reachable cursor succeeds. -/
theorem Reachable.isSound {line : Text} {cursor : Cursor} (h : Reachable line cursor) :
    cursor.IsSound where
  splitAt?_offset := splitAt?_eq_some_iff.mpr ⟨rfl, rfl⟩
  slice?_content := by
    rw [h.content_eq]
    exact slice?_extent cursor.text
  length_le := fun hm hfound => hm.length_le hfound
  spans := fun _ hscan => spans_of_scan? hscan
  cut?_hex := by
    intro token next hscan
    obtain ⟨gap, lexeme, after, -, -, hspelled, -, htoken, rfl⟩ :=
      exists_spelled_of_scan? matchHex_reads hscan
    obtain ⟨digits, -, -, -, hvalue⟩ := hspelled
    refine ⟨cursor.consumed ++ gap, ?_⟩
    rw [htoken, hvalue, pass_consumed, ← List.append_assoc]
    refine cut?_eq_some_iff.mpr ⟨?_, rfl, rfl⟩
    rw [Segment.token_value, List.append_nil]

/-! ## Steps that leave the line as it is -/

/-- Steps that leave the line as it is, and the spans of what they read. -/
structure Finds (cursor next : Cursor) (spans : List Span) : Prop where
  /-- There are such steps. -/
  reaches : Reaches cursor next
  /-- The line is the same. -/
  text_eq : next.text = cursor.text
  /-- What was read is in the line. -/
  spans : ∀ span ∈ spans, cursor.text.Spans span

theorem Finds.refl (cursor : Cursor) : Finds cursor cursor [] :=
  ⟨.refl, rfl, nofun⟩

/-- What is found by further steps is in the same line. -/
theorem Finds.append {cursor next last : Cursor} {first second : List Span}
    (h : Finds cursor next first) (h' : Finds next last second) :
    Finds cursor last (first ++ second) where
  reaches := h.reaches.trans h'.reaches
  text_eq := h'.text_eq.trans h.text_eq
  spans := by
    intro span hspan
    rcases List.mem_append.mp hspan with hspan | hspan
    · exact h.spans span hspan
    · rw [← h.text_eq]
      exact h'.spans span hspan

theorem finds_read {m : Matcher α} (hm : IsTokenClass m) (cursor : Cursor) :
    Finds cursor (read m cursor).2 ((read m cursor).1.toList.map Located.range) := by
  refine ⟨.single (.read hm), text_read m cursor, ?_⟩
  rcases read_cases m cursor with h | ⟨token, next, hscan, h⟩
  · rw [h]
    nofun
  · rw [h]
    exact List.forall_mem_singleton.mpr (spans_of_scan? hscan)

theorem finds_numbers (k : Nat) (cursor : Cursor) :
    Finds cursor (cursor.numbers k).2 ((cursor.numbers k).1.map Located.range) := by
  -- Induction on the numbers still wanted, from the cursor behind the first of them.
  induction k generalizing cursor with
  | zero => exact .refl cursor
  | succ k ih =>
    have hread := finds_read .number cursor
    rcases h : read matchNumber cursor with ⟨_ | n, next⟩
    · rw [numbers, number, h]
      exact .refl cursor
    · rw [h] at hread
      rw [numbers, number, h]
      exact hread.append (ih next)

theorem finds_arguments (cursor : Cursor) :
    Finds cursor cursor.arguments.2 (cursor.arguments.1.map Located.range) := by
  -- The recursion of `arguments`: a comment, a string, or neither comes next.
  induction cursor using arguments.induct with
  | case1 cursor hcomment =>
    rw [arguments, if_pos hcomment]
    exact .refl cursor
  | case2 cursor hcomment argument next hscan _ _ _ _ ih =>
    have hread := finds_read .string cursor
    rw [read_eq_some_iff.mpr hscan] at hread
    rw [arguments_of_scan? (by simpa using hcomment) hscan]
    exact hread.append ih
  | case3 cursor hcomment hscan =>
    rw [arguments_of_scan?_eq_none hscan]
    exact .refl cursor

end Cursor

theorem Rule.finds_argument (cursor : Cursor) :
    Finds cursor (Rule.argument cursor).2 ((Rule.argument cursor).1.toList.map Located.range) := by
  unfold Rule.argument
  split
  · exact .refl cursor
  · exact finds_read .string cursor

end ItemFilter
