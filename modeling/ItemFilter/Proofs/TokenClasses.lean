import ItemFilter.Proofs.FirstChunk
import ItemFilter.Proofs.Reachable

/-!
# What the cursor reads

Wherever a cursor stands, whether it reads a token of a class is decided by the text in front of it.
Most tokens hold no white space: such a token is read exactly if the whole of the next chunk is one.
A string between quotes and a comment may go on behind the chunk, up to the next quote or to the end
of the line. No reader goes back to try a shorter token, so this also says that none is ever missed.

## Main definitions

* `Cursor.Recognizes`: what a reader finds, in terms of the values that are there to be found
* `Spelling.IsSolid`: a class of tokens without white space
* `Text.StringAhead`, `Text.CommentAhead`: the string and the comment that a text starts with

## Main results

* `Cursor.recognizes_chunk`: a token without white space is read if it is the next chunk
* `Cursor.recognizes_string`, `Cursor.recognizes_comment`: when a string is read, and a comment
* `Cursor.recognizes_tokens`: what is read of each class
-/

namespace ItemFilter

open Text
open Cursor hiding read

variable {α : Type}

/-! ## Tokens without white space -/

namespace Spelling

/-- A class of tokens in which there is no white space. -/
def IsSolid (spelling : Spelling α) : Prop :=
  ∀ {lexeme value}, spelling lexeme value → ∀ c ∈ lexeme, isBlank c = false

theorem word_isSolid : word.IsSolid := fun h c hc => isBlank_of_isWordChar (h.2.1 c hc)

theorem number_isSolid : number.IsSolid := by
  rintro lexeme value ⟨n, ⟨digits, -, hall, ⟨rfl, -⟩ | ⟨rfl, -⟩⟩, -⟩
  · exact fun c hc => isBlank_of_isDigit (hall c hc)
  · exact List.forall_mem_cons.mpr ⟨by decide, fun c hc => isBlank_of_isDigit (hall c hc)⟩

theorem operator_isSolid : operator.IsSolid := by
  rintro lexeme op rfl
  have hall : op.spelling.any isBlank = false := by cases op <;> rfl
  exact fun c hc => by simpa using List.any_eq_false.mp hall c hc

theorem hex_isSolid : hex.IsSolid := by
  rintro lexeme value ⟨digits, rfl, hall, -⟩
  exact List.forall_mem_cons.mpr ⟨by decide, fun c hc => isBlank_of_isHexDigit (hall c hc)⟩

/-- The name of a truth value has no white space in it, as no letter of it has, in any case. -/
theorem isBlank_of_mem_name {name : Text} {value : Bool}
    (h : sameIgnoringCase name (truthName value) = true) : ∀ c ∈ name, isBlank c = false := by
  have hmap : name.map Char.toLower = (truthName value).map Char.toLower := beq_iff_eq.mp h
  have hletters : ((truthName value).map Char.toLower).any isBlank = false := by
    cases value <;> rfl
  intro c hc
  have hmem : c.toLower ∈ (truthName value).map Char.toLower := hmap ▸ List.mem_map_of_mem hc
  exact isBlank_of_toLower rfl (by simpa using List.any_eq_false.mp hletters _ hmem)

theorem boolean_isSolid : boolean.IsSolid := by
  rintro lexeme value ⟨name, hname, rfl | rfl⟩
  · exact isBlank_of_mem_name hname
  · simp only [List.forall_mem_cons, List.forall_mem_append]
    exact ⟨by decide, isBlank_of_mem_name hname, by decide, List.forall_mem_nil _⟩

end Spelling

/-! ## Strings and comments -/

namespace Text

/-- A text starts with a string: a quote, the value up to the next quote, and a boundary; or a chunk
without quotes and comparison signs. -/
def StringAhead (text value : Text) : Prop :=
  (∃ after, trimStart text = '"' :: (value ++ '"' :: after) ∧ '"' ∉ value ∧
    atBoundary after = true) ∨
  (chunk text ≠ [] ∧ (∀ c ∈ chunk text, c ≠ '"' ∧ c ≠ '\'' ∧ c ≠ '<' ∧ c ≠ '>' ∧ c ≠ '=') ∧
    value = chunk text)

/-- A text starts with a comment: a comment sign and all that follows it but white space at the
end. -/
def CommentAhead (text value : Text) : Prop :=
  (trimStart text).head? = some '#' ∧ value = trimEnd (trimStart text)

end Text

namespace Cursor

/-- A reader finds a value exactly if it is there to be found, and if there is none, it leaves the
cursor as it is. -/
structure Recognizes (cursor : Cursor) (result : Option (Token α) × Cursor) (there : α → Prop) :
    Prop where
  /-- The values that are found are those that are there. -/
  value_iff : ∀ value, (∃ token, result.1 = some token ∧ token.value = value) ↔ there value
  /-- Where there is nothing, nothing changes. -/
  eq_of_not : (¬ ∃ value, there value) → result = (none, cursor)

variable {m : Matcher α} {spelling : Spelling α} {cursor : Cursor} {there : α → Prop}

/-- Without a token the cursor stays where it is, so only the values are to be looked at. -/
theorem recognizes_of_value_iff
    (h : ∀ value, (∃ token, (read m cursor).1 = some token ∧ token.value = value) ↔ there value) :
    Recognizes cursor (read m cursor) there where
  value_iff := h
  eq_of_not := by
    intro hnot
    rcases read_cases m cursor with hnone | ⟨token, next, -, hsome⟩
    · exact hnone
    · exact absurd ⟨token.value, (h token.value).mp ⟨token, by rw [hsome], rfl⟩⟩ hnot

/-- A reader that reads a class finds a value if there is a lexeme of it, behind white space and in
front of a boundary. -/
theorem exists_read_iff (hm : m.Reads spelling) (cursor : Cursor) (value : α) :
    (∃ token, (read m cursor).1 = some token ∧ token.value = value) ↔
      ∃ gap lexeme after, cursor.rest = gap ++ lexeme ++ after ∧ allBlank gap = true ∧
        spelling lexeme value ∧ atBoundary after = true := by
  constructor
  · rintro ⟨token, hread, rfl⟩
    obtain ⟨gap, lexeme, after, hrest, hgap, hspelled, hb, -⟩ :=
      exists_spelled_of_scan? hm (read_eq_some_iff.mp (Prod.ext hread rfl))
    exact ⟨gap, lexeme, after, hrest, hgap, hspelled, hb⟩
  · rintro ⟨gap, lexeme, after, hrest, hgap, hspelled, hb⟩
    exact ⟨_, by rw [read_eq_some_iff.mpr (scan?_of_spelled hm hrest hgap hspelled hb)], rfl⟩

/-- A token without white space is read if it is the next chunk. -/
theorem recognizes_chunk (hm : m.Reads spelling) (hsolid : spelling.IsSolid) (cursor : Cursor) :
    Recognizes cursor (read m cursor) (spelling (chunk cursor.rest)) := by
  refine recognizes_of_value_iff fun value => (exists_read_iff hm cursor value).trans ?_
  constructor
  · rintro ⟨gap, lexeme, after, hrest, hgap, hspelled, hb⟩
    rwa [hrest, chunk_append hgap (hm.flush hspelled).ne_nil (hsolid hspelled) hb]
  · intro hspelled
    exact ⟨leading cursor.rest, chunk cursor.rest, afterChunk cursor.rest, eq_of_chunk rfl,
      allBlank_leading _, hspelled, atBoundary_afterChunk _⟩

/-- A character that is no white space ends a bare string if it is a quote or a comparison sign. -/
theorem endsBareString_eq_false_iff {c : Char} :
    endsBareString c = false ↔
      isBlank c = false ∧ c ≠ '"' ∧ c ≠ '\'' ∧ c ≠ '<' ∧ c ≠ '>' ∧ c ≠ '=' := by
  simp [endsBareString, and_assoc]

theorem recognizes_string (cursor : Cursor) :
    Recognizes cursor cursor.string (StringAhead cursor.rest) := by
  refine recognizes_of_value_iff fun value =>
    (exists_read_iff matchString_reads cursor value).trans ?_
  constructor
  · rintro ⟨gap, lexeme, after, hrest, hgap, hspelled, hb⟩
    have hflush := matchString_reads.flush hspelled
    rcases hspelled with ⟨hquote, rfl⟩ | ⟨hne, hall, rfl⟩
    · refine Or.inl ⟨after, ?_, hquote, hb⟩
      rw [hrest, List.append_assoc, trimStart_append_of_flush hgap (hflush.append after)]
      simp
    · have hall' := fun c hc => endsBareString_eq_false_iff.mp (hall c hc)
      refine Or.inr ?_
      rw [hrest, chunk_append hgap hne (fun c hc => (hall' c hc).1) hb]
      exact ⟨hne, fun c hc => (hall' c hc).2, rfl⟩
  · rintro (⟨after, hfront, hquote, hb⟩ | ⟨hne, hall, rfl⟩)
    · refine ⟨leading cursor.rest, '"' :: (value ++ ['"']), after, ?_, allBlank_leading _,
        Or.inl ⟨hquote, rfl⟩, hb⟩
      conv_lhs => rw [← leading_append_trimStart cursor.rest, hfront]
      simp
    · -- There is no white space in a chunk.
      have hall' : ∀ c ∈ chunk cursor.rest, endsBareString c = false := fun c hc =>
        endsBareString_eq_false_iff.mpr ⟨by simpa using List.mem_takeWhile_imp hc, hall c hc⟩
      exact ⟨leading cursor.rest, chunk cursor.rest, afterChunk cursor.rest, eq_of_chunk rfl,
        allBlank_leading _, Or.inr ⟨hne, hall', rfl⟩, atBoundary_afterChunk _⟩

/-- A comment that comes next is read up to the white space at the end of the line. -/
theorem comment_of_isCommented (h : cursor.isCommented = true) :
    ∃ token next, cursor.comment = (some token, next) ∧
      token.value = trimEnd (trimStart cursor.rest) ∧ allBlank next.rest = true := by
  have hhead := isCommented_iff.mp h
  obtain ⟨text, htext⟩ := List.head?_eq_some_iff.mp hhead
  obtain ⟨after, hsplit, hafter⟩ := eq_trimEnd_append (trimStart cursor.rest)
  have hrest : cursor.rest =
      leading cursor.rest ++ trimEnd (trimStart cursor.rest) ++ after := by
    rw [List.append_assoc, ← hsplit, leading_append_trimStart]
  have hspelled : Spelling.comment (trimEnd (trimStart cursor.rest))
      (trimEnd (trimStart cursor.rest)) := by
    refine ⟨?_, trimEnd_trimEnd _, rfl⟩
    rw [htext, trimEnd_cons (by decide), List.head?_cons]
  exact ⟨_, _, comment_of_spelled hrest (allBlank_leading _) hspelled hafter, rfl, hafter⟩

theorem recognizes_comment (cursor : Cursor) :
    Recognizes cursor cursor.comment (CommentAhead cursor.rest) := by
  refine recognizes_of_value_iff fun value => ?_
  change (∃ token, cursor.comment.1 = some token ∧ token.value = value) ↔ _
  cases hcomment : cursor.isCommented with
  | false =>
    have hhead := isCommented_eq_false_iff.mp hcomment
    rw [comment_of_not_isCommented hcomment]
    simp [CommentAhead, hhead]
  | true =>
    have hhead := isCommented_iff.mp hcomment
    obtain ⟨token, next, hread, hvalue, -⟩ := comment_of_isCommented hcomment
    rw [hread]
    simp [CommentAhead, hhead, hvalue, eq_comm]

/-- What a cursor reads, wherever it stands: a word, a number, an operator, a colour or a truth
value if the next chunk is one as a whole, a string or a comment if the text in front of the cursor
starts with one. The value is the one that is written, a number being the nearest 64-bit integer.
Behind a comment nothing is left, and where there is no token of a class, the cursor stays as it is.
-/
theorem recognizes_tokens (cursor : Cursor) :
    cursor.Recognizes cursor.word (Spelling.word (chunk cursor.rest)) ∧
    cursor.Recognizes cursor.number (Spelling.number (chunk cursor.rest)) ∧
    cursor.Recognizes cursor.operator (Spelling.operator (chunk cursor.rest)) ∧
    cursor.Recognizes cursor.hex (Spelling.hex (chunk cursor.rest)) ∧
    cursor.Recognizes cursor.boolean (Spelling.boolean (chunk cursor.rest)) ∧
    cursor.Recognizes cursor.string (StringAhead cursor.rest) ∧
    cursor.Recognizes cursor.comment (CommentAhead cursor.rest) ∧
    ∀ token next, cursor.comment = (some token, next) → next.isEmpty = true := by
  refine ⟨recognizes_chunk matchWord_reads Spelling.word_isSolid cursor,
    recognizes_chunk matchNumber_reads Spelling.number_isSolid cursor,
    recognizes_chunk matchOperator_reads Spelling.operator_isSolid cursor,
    recognizes_chunk matchHex_reads Spelling.hex_isSolid cursor,
    recognizes_chunk matchBoolean_reads Spelling.boolean_isSolid cursor,
    recognizes_string cursor, recognizes_comment cursor, fun token next hread => ?_⟩
  cases hcomment : cursor.isCommented with
  | false =>
    rw [comment_of_not_isCommented hcomment] at hread
    cases hread
  | true =>
    obtain ⟨token', next', hread', -, hblank⟩ := comment_of_isCommented hcomment
    obtain ⟨-, rfl⟩ := Prod.mk.inj (hread.symm.trans hread')
    exact hblank

/-- A number with more digits than 64 bits have room for is read as the least or greatest one. -/
example :
    ((atStart "-99999999999999999999999 5".toList).number.1.map Located.value) =
      some (-9223372036854775808) := by
  decide +kernel

end Cursor

end ItemFilter
