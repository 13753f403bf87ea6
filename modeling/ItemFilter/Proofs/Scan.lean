import ItemFilter.Proofs.Columns
import ItemFilter.Proofs.Lexeme

/-!
# Scanning, segment by segment

A segment is a token as it stands in a line, with the white space in front of it. Reading a class of
tokens is characterized by segments: the cursor passes a segment and comes to stand at a boundary,
and it passes every segment of the class that stands there. Both directions are stated on the
characters of the line, so that a line taken apart by one run of the cursor can be put together
again with a different end and read by another run.

## Main definitions

* `Segment`: a token with the white space in front of it
* `Segment.IsOf`: a segment of a class of tokens
* `Segment.texts`, `Segment.tokens`: the characters and the tokens of consecutive segments
* `Cursor.pass`: the cursor behind a text
* `Spelling.Apart`: classes of tokens that differ in the first character
* `Text.IsClosed`: a text that holds no further arguments
* `Spelling.Starts`: a text with a token of a class at its start
* `commentSegment`: the comment that a sign behind white space starts

## Main results

* `Segment.IsOf.read`, `exists_segment_of_read`: reading a token is passing a segment
* `read_of_apart`: a token of another class is not read
* `numbers_append`, `exists_segments_of_numbers`: reading numbers, one after another
* `arguments_append`, `exists_segments_of_arguments`: reading strings, one after another
* `read_eq_none_iff`, `numbers_eq_nil_iff`, `arguments_eq_nil_iff`: where nothing is read
* `comment_of_spelled`, `exists_comment`: reading a comment leaves nothing but white space
-/

namespace ItemFilter

open Text Cursor

variable {α β : Type}

/-- A token as it stands in a line, with the white space in front of it. -/
structure Segment (α : Type) where
  /-- The white space in front of the token. -/
  gap : Text
  /-- The token as it is written. -/
  lexeme : Text
  /-- The value of the token. -/
  value : α

namespace Segment

/-- The characters of a segment. -/
def text (p : Segment α) : Text :=
  p.gap ++ p.lexeme

/-- The token of a segment that stands behind the text `before`. -/
def token (before : Text) (p : Segment α) : Token α :=
  ⟨p.value, spanOf (before ++ p.gap) p.lexeme⟩

/-- The segment with its value changed. -/
def map (f : α → β) (p : Segment α) : Segment β :=
  ⟨p.gap, p.lexeme, f p.value⟩

@[simp] theorem map_text (f : α → β) (p : Segment α) : (p.map f).text = p.text := rfl

@[simp] theorem map_value (f : α → β) (p : Segment α) : (p.map f).value = f p.value := rfl

@[simp] theorem map_token (f : α → β) (before : Text) (p : Segment α) :
    (p.map f).token before = (p.token before).map f := rfl

@[simp] theorem token_value (before : Text) (p : Segment α) :
    (p.token before).value = p.value := rfl

/-- A segment of a class of tokens: a lexeme of the class behind white space. -/
structure IsOf (spelling : Spelling α) (p : Segment α) : Prop where
  /-- Nothing but white space stands in front of the token. -/
  blank : allBlank p.gap = true
  /-- There is white space in front of the token. -/
  gap_ne_nil : p.gap ≠ []
  /-- The token is written as its class wants it. -/
  spelled : spelling p.lexeme p.value

/-- The characters of consecutive segments. -/
def texts (ps : List (Segment α)) : Text :=
  ps.flatMap text

/-- The tokens of consecutive segments that stand behind the text `before`. -/
def tokens (before : Text) : List (Segment α) → List (Token α)
  | [] => []
  | p :: ps => p.token before :: tokens (before ++ p.text) ps

@[simp] theorem texts_nil : texts ([] : List (Segment α)) = [] := rfl

@[simp] theorem texts_cons (p : Segment α) (ps : List (Segment α)) :
    texts (p :: ps) = p.text ++ texts ps := rfl

@[simp] theorem tokens_nil (before : Text) : tokens before ([] : List (Segment α)) = [] := rfl

@[simp] theorem tokens_cons (before : Text) (p : Segment α) (ps : List (Segment α)) :
    tokens before (p :: ps) = p.token before :: tokens (before ++ p.text) ps := rfl

@[simp] theorem length_tokens (before : Text) (ps : List (Segment α)) :
    (tokens before ps).length = ps.length := by
  induction ps generalizing before with
  | nil => rfl
  | cons p ps ih => simp [ih]

/-- The values of consecutive tokens are those of the segments. -/
theorem map_value_tokens (before : Text) (ps : List (Segment α)) :
    (tokens before ps).map Located.value = ps.map value := by
  induction ps generalizing before with
  | nil => rfl
  | cons p ps ih => simp [ih]

@[simp] theorem texts_map (f : α → β) (ps : List (Segment α)) :
    texts (ps.map (map f)) = texts ps := by
  induction ps with
  | nil => rfl
  | cons p ps ih => simp [ih]

/-- The values of segments whose values were changed. -/
theorem map_value_map (f : α → β) (ps : List (Segment α)) :
    (ps.map (map f)).map value = (ps.map value).map f := by
  rw [List.map_map, List.map_map]
  rfl

@[simp] theorem tokens_map (f : α → β) (before : Text) (ps : List (Segment α)) :
    tokens before (ps.map (map f)) = (tokens before ps).map (Located.map f) := by
  induction ps generalizing before with
  | nil => rfl
  | cons p ps ih => simp [ih]

@[simp] theorem texts_append (ps qs : List (Segment α)) : texts (ps ++ qs) = texts ps ++ texts qs :=
  List.flatMap_append

/-- The tokens of later segments stand behind the earlier ones. -/
theorem tokens_append (before : Text) (ps qs : List (Segment α)) :
    tokens before (ps ++ qs) = tokens before ps ++ tokens (before ++ texts ps) qs := by
  induction ps generalizing before with
  | nil => simp
  | cons p ps ih => simp [ih]

variable {spelling : Spelling α}

theorem IsOf.atBoundary {p : Segment α} (hp : p.IsOf spelling) (after : Text) :
    atBoundary (p.text ++ after) = true := by
  rw [text, List.append_assoc]
  exact atBoundary_append hp.blank hp.gap_ne_nil _

theorem atBoundary_texts {ps : List (Segment α)} (hps : ∀ p ∈ ps, p.IsOf spelling) {tail : Text}
    (hb : Cursor.atBoundary tail = true) : Cursor.atBoundary (texts ps ++ tail) = true := by
  cases ps with
  | nil => exact hb
  | cons p ps =>
    rw [texts_cons, List.append_assoc]
    exact (hps p (List.mem_cons_self ..)).atBoundary _

end Segment

/-! ## Reading one token -/

namespace Cursor

/-- The cursor behind a text it has passed, in front of what follows. -/
def pass (cursor : Cursor) (passed after : Text) : Cursor :=
  { cursor with consumed := cursor.consumed ++ passed, rest := after }

@[simp] theorem pass_rest (cursor : Cursor) (passed after : Text) :
    (cursor.pass passed after).rest = after := rfl

@[simp] theorem pass_consumed (cursor : Cursor) (passed after : Text) :
    (cursor.pass passed after).consumed = cursor.consumed ++ passed := rfl

@[simp] theorem pass_content (cursor : Cursor) (passed after : Text) :
    (cursor.pass passed after).content = cursor.content := rfl

@[simp] theorem pass_pass (cursor : Cursor) (first second between after : Text) :
    (cursor.pass first between).pass second after = cursor.pass (first ++ second) after := by
  simp [pass]

@[simp] theorem pass_nil (cursor : Cursor) : cursor.pass [] cursor.rest = cursor := by
  simp [pass]

theorem isCommented_iff {cursor : Cursor} :
    cursor.isCommented = true ↔ (trimStart cursor.rest).head? = some '#' :=
  beq_iff_eq

theorem isCommented_eq_false_iff {cursor : Cursor} :
    cursor.isCommented = false ↔ (trimStart cursor.rest).head? ≠ some '#' :=
  beq_eq_false_iff_ne

variable {m : Matcher α} {spelling : Spelling α}

/-- A cursor in front of a lexeme, with white space between them, reads it. -/
theorem scan?_of_spelled (hm : m.Reads spelling) {cursor : Cursor} {gap lexeme after : Text}
    {value : α} (hrest : cursor.rest = gap ++ lexeme ++ after) (hgap : allBlank gap = true)
    (hspelled : spelling lexeme value) (hb : atBoundary after = true) :
    scan? m cursor = some ((⟨gap, lexeme, value⟩ : Segment α).token cursor.consumed,
      cursor.pass (gap ++ lexeme) after) := by
  have hflush := hm.flush hspelled
  rw [List.append_assoc] at hrest
  -- The cursor skips the white space, and finds the lexeme where the matcher looks for one.
  have htrim : trimStart cursor.rest = lexeme ++ after := by
    rw [hrest, trimStart_append_of_flush hgap (hflush.append after)]
  have hlead : leading cursor.rest = gap := by
    rw [hrest, leading_append_of_flush hgap (hflush.append after)]
  refine scan?_eq_some_iff.mpr ⟨lexeme.length, ?_, ?_, ?_, ?_, ?_, ?_⟩
  · rw [htrim]
    exact hm.complete hspelled hb
  · rw [htrim, List.take_left' rfl]
    exact hflush.ne_nil
  · rwa [htrim, List.drop_left' rfl]
  · simp [hlead, Segment.token, offset]
  · simp [htrim, Segment.token]
  · simp [htrim, hlead, pass]

/-- A cursor that read a token has passed white space and a lexeme, and stands at a boundary. -/
theorem exists_spelled_of_scan? (hm : m.Reads spelling) {cursor next : Cursor} {token : Token α}
    (h : scan? m cursor = some (token, next)) :
    ∃ gap lexeme after, cursor.rest = gap ++ lexeme ++ after ∧ allBlank gap = true ∧
      spelling lexeme token.value ∧ atBoundary after = true ∧
      token = (⟨gap, lexeme, token.value⟩ : Segment α).token cursor.consumed ∧
      next = cursor.pass (gap ++ lexeme) after := by
  obtain ⟨n, hfound, hne, hb, hstart, hstop, rfl⟩ := scan?_eq_some_iff.mp h
  obtain ⟨value, ⟨start, stop⟩⟩ := token
  dsimp only at hstart hstop hfound
  refine ⟨leading cursor.rest, (trimStart cursor.rest).take n, (trimStart cursor.rest).drop n,
    ?_, allBlank_leading _, hm.sound hfound hne hb, hb, ?_, ?_⟩
  · rw [List.append_assoc, List.take_append_drop, leading_append_trimStart]
  · simp [Segment.token, spanOf, hstop, hstart, offset, Nat.add_assoc]
  · simp [pass]

/-- Where the token of a class is read does not depend on which side of the cursor the white space
in front of it stands. -/
theorem scan?_skip (m : Matcher α) {consumed gap text : Text} {content : Span}
    (hgap : allBlank gap = true) (htext : IsFlush text) :
    scan? m ⟨consumed ++ gap, text, content⟩ = scan? m ⟨consumed, gap ++ text, content⟩ := by
  have hlead : leading text = [] := leading_append_of_flush allBlank_nil htext
  simp only [scan?, htext.trimStart, trimStart_append_of_flush hgap htext,
    leading_append_of_flush hgap htext, hlead, offset, byteLength_append, byteLength_nil,
    Nat.add_zero, List.append_nil]

/-- Nothing is read in front of a character that no lexeme of the class starts with. -/
theorem scan?_eq_none_of_head (hm : m.Reads spelling) {cursor : Cursor}
    (h : ∀ lexeme value, spelling lexeme value →
      lexeme.head? ≠ (trimStart cursor.rest).head?) : scan? m cursor = none := by
  cases hscan : scan? m cursor with
  | none => rfl
  | some found =>
    obtain ⟨token, next⟩ := found
    obtain ⟨gap, lexeme, after, hrest, hgap, hspelled, -⟩ := exists_spelled_of_scan? hm hscan
    have hflush := hm.flush hspelled
    -- a lexeme that was read starts where the white space ends
    refine absurd ?_ (h lexeme token.value hspelled)
    rw [hrest, List.append_assoc, trimStart_append_of_flush hgap (hflush.append after),
      hflush.head?_append]

theorem read_of_scan?_eq_none {cursor : Cursor} (h : scan? m cursor = none) :
    read m cursor = (none, cursor) := by
  simp [read, h]

theorem scan?_of_read_eq_none {cursor next : Cursor} (h : read m cursor = (none, next)) :
    scan? m cursor = none ∧ next = cursor := by
  unfold read at h
  split at h
  · cases h
  · next hscan =>
    obtain ⟨-, rfl⟩ := Prod.mk.inj h
    exact ⟨hscan, rfl⟩

theorem read_eq_some_iff {cursor next : Cursor} {token : Token α} :
    read m cursor = (some token, next) ↔ scan? m cursor = some (token, next) := by
  unfold read
  constructor
  · intro h
    split at h
    · next hscan =>
      obtain ⟨htoken, rfl⟩ := Prod.mk.inj h
      rw [hscan, Option.some.inj htoken]
    · cases h
  · intro h
    rw [h]

end Cursor

section Read

variable {m : Matcher α} {spelling : Spelling α}

/-- A cursor in front of a segment passes it. -/
theorem Segment.IsOf.read (hm : m.Reads spelling) {p : Segment α} (hp : p.IsOf spelling)
    (cursor : Cursor) {after : Text} (hrest : cursor.rest = p.text ++ after)
    (hb : Cursor.atBoundary after = true) :
    Cursor.read m cursor = (some (p.token cursor.consumed), cursor.pass p.text after) :=
  read_eq_some_iff.mpr (scan?_of_spelled hm hrest hp.blank hp.spelled hb)

/-- A cursor that read a token at a boundary has passed a segment. -/
theorem exists_segment_of_read (hm : m.Reads spelling) {cursor next : Cursor} {token : Token α}
    (hb : atBoundary cursor.rest = true) (h : read m cursor = (some token, next)) :
    ∃ p after, Segment.IsOf spelling p ∧ cursor.rest = p.text ++ after ∧ atBoundary after = true ∧
      token = p.token cursor.consumed ∧ next = cursor.pass p.text after := by
  obtain ⟨gap, lexeme, after, hrest, hgap, hspelled, hafter, htoken, hnext⟩ :=
    exists_spelled_of_scan? hm (read_eq_some_iff.mp h)
  refine ⟨⟨gap, lexeme, token.value⟩, after, ⟨hgap, ?_, hspelled⟩, hrest, hafter, htoken, hnext⟩
  rw [hrest, List.append_assoc] at hb
  exact ne_nil_of_atBoundary hb ((hm.flush hspelled).append after)

/-- Two classes of tokens whose lexemes differ in the first character. -/
def Spelling.Apart (spelling : Spelling α) (other : Spelling β) : Prop :=
  ∀ {lexeme value lexeme' value'}, spelling lexeme value → other lexeme' value' →
    lexeme.head? ≠ lexeme'.head?

/-- In front of a segment of another class nothing is read. -/
theorem read_of_apart {spelling' : Spelling β} (hm : m.Reads spelling)
    (hapart : spelling.Apart spelling') {p : Segment β} (hp : p.IsOf spelling')
    (hflush : IsFlush p.lexeme) {cursor : Cursor} {after : Text}
    (hrest : cursor.rest = p.text ++ after) : read m cursor = (none, cursor) := by
  refine read_of_scan?_eq_none (scan?_eq_none_of_head hm fun lexeme value hspelled => ?_)
  rw [hrest, Segment.text, List.append_assoc, trimStart_append_of_flush hp.blank
    (hflush.append after), hflush.head?_append]
  exact hapart hspelled hp.spelled

end Read

/-! ## First characters -/

namespace Spelling

theorem operator_head {lexeme : Text} {value : Operator} (h : operator lexeme value) :
    lexeme.head? = some '<' ∨ lexeme.head? = some '>' ∨ lexeme.head? = some '=' := by
  obtain rfl := h
  cases value <;> simp [Operator.spelling]

theorem number_head {lexeme : Text} {value : Int} (h : number lexeme value) :
    ∃ c, lexeme.head? = some c ∧ (c.isDigit = true ∨ c = '-') := by
  obtain ⟨n, ⟨digits, hne, hall, ⟨rfl, -⟩ | ⟨rfl, -⟩⟩, -⟩ := h
  · obtain ⟨c, rest, rfl⟩ := List.exists_cons_of_ne_nil hne
    exact ⟨c, rfl, Or.inl (hall c (List.mem_cons_self ..))⟩
  · exact ⟨'-', rfl, Or.inr rfl⟩

theorem string_head {lexeme value : Text} (h : string lexeme value) :
    ∃ c, lexeme.head? = some c ∧ (c = '"' ∨ endsBareString c = false) := by
  obtain ⟨-, rfl⟩ | ⟨hne, hall, -⟩ := h
  · exact ⟨'"', rfl, Or.inl rfl⟩
  · obtain ⟨c, rest, rfl⟩ := List.exists_cons_of_ne_nil hne
    exact ⟨c, rfl, Or.inr (hall c (List.mem_cons_self ..))⟩

theorem boolean_head {lexeme : Text} {value : Bool} (h : boolean lexeme value) :
    ∃ c, lexeme.head? = some c ∧ (c = '"' ∨ c.toLower = 't' ∨ c.toLower = 'f') := by
  obtain ⟨name, hname, h⟩ := h
  rcases h with rfl | rfl
  · obtain ⟨c, rest, rfl, hc⟩ := truthName_head hname
    exact ⟨c, rfl, Or.inr hc⟩
  · exact ⟨'"', rfl, Or.inl rfl⟩

/-- No class of arguments starts like an operator. -/
theorem operator_apart {spelling : Spelling α}
    (h : ∀ {lexeme value}, spelling lexeme value →
      ∃ c, lexeme.head? = some c ∧ c ≠ '<' ∧ c ≠ '>' ∧ c ≠ '=') : operator.Apart spelling := by
  intro lexeme value lexeme' value' hop hother heq
  obtain ⟨c, hc, hlt, hgt, heq'⟩ := h hother
  rw [hc] at heq
  rcases operator_head hop with h | h | h <;> rw [h, Option.some.injEq] at heq
  · exact hlt heq.symm
  · exact hgt heq.symm
  · exact heq' heq.symm

theorem operator_apart_number : operator.Apart number := operator_apart fun h => by
  obtain ⟨c, hc, h⟩ := number_head h
  refine ⟨c, hc, ?_, ?_, ?_⟩ <;> rintro rfl <;> revert h <;> decide

theorem operator_apart_string : operator.Apart string := operator_apart fun h => by
  obtain ⟨c, hc, h⟩ := string_head h
  refine ⟨c, hc, ?_, ?_, ?_⟩ <;> rintro rfl <;> revert h <;> decide

theorem operator_apart_boolean : operator.Apart boolean := operator_apart fun h => by
  obtain ⟨c, hc, h⟩ := boolean_head h
  refine ⟨c, hc, ?_, ?_, ?_⟩ <;> rintro rfl <;> revert h <;> decide

theorem operator_apart_hex : operator.Apart hex := operator_apart fun h => by
  obtain ⟨digits, rfl, -⟩ := h
  exact ⟨'#', rfl, by decide, by decide, by decide⟩

theorem hex_apart_number : hex.Apart number := by
  intro lexeme value lexeme' value' hhex hnumber heq
  obtain ⟨digits, rfl, -⟩ := hhex
  obtain ⟨c, hc, h⟩ := number_head hnumber
  rw [hc, List.head?_cons, Option.some.injEq] at heq
  obtain rfl := heq
  revert h
  decide

end Spelling

/-! ## The end of the arguments -/

/-- A text that holds no further arguments: white space, and a comment perhaps. -/
def Text.IsClosed (tail : Text) : Prop :=
  ∀ c ∈ (trimStart tail).head?, c = '#'

namespace Text

theorem isClosed_of_allBlank {tail : Text} (h : allBlank tail = true) : IsClosed tail := by
  simp [IsClosed, trimStart_of_allBlank h]

/-- A text that is closed by a comment. -/
theorem isClosed_of_head {tail : Text} (h : (trimStart tail).head? = some '#') :
    IsClosed tail := by
  intro c hc
  rw [h] at hc
  exact (Option.mem_some_iff.mp hc).symm

/-- A text is closed by a comment sign behind white space. -/
theorem isClosed_sign {gap : Text} (hgap : allBlank gap = true) (text : Text) :
    IsClosed (gap ++ '#' :: text) := by
  refine isClosed_of_head ?_
  rw [trimStart_append_of_flush hgap (isFlush_cons.mpr (by decide)), List.head?_cons]

/-- A closed text without a comment is white space. -/
theorem IsClosed.allBlank {tail : Text} (h : IsClosed tail)
    (hnot : (trimStart tail).head? ≠ some '#') : allBlank tail = true := by
  by_contra hblank
  obtain ⟨c, rest, hrest, -⟩ := isFlush_trimStart (by simpa using hblank)
  have hc : c = '#' := h c (by simp [hrest])
  exact hnot (by simp [hrest, hc])

end Text

theorem scan?_of_isClosed {m : Matcher α} {spelling : Spelling α} (hm : m.Reads spelling)
    (hhash : ∀ {lexeme value}, spelling lexeme value → lexeme.head? ≠ some '#') {cursor : Cursor}
    (h : IsClosed cursor.rest) : scan? m cursor = none := by
  refine scan?_eq_none_of_head hm fun lexeme value hspelled heq => ?_
  obtain ⟨c, rest, rfl, -⟩ := hm.flush hspelled
  have hc : c = '#' := h c (by simp [← heq])
  exact hhash hspelled (by simp [hc])

/-! ## Numbers and strings in a row -/

theorem Spelling.number_head_ne {lexeme : Text} {value : Int}
    (h : Spelling.number lexeme value) : lexeme.head? ≠ some '#' := by
  obtain ⟨c, hc, h⟩ := Spelling.number_head h
  rw [hc]
  rintro heq
  obtain rfl := Option.some.inj heq
  revert h
  decide

/-- Numbers that stand in a row are read first, and then further ones behind them. -/
theorem numbers_append {ps : List (Segment Int)} (hps : ∀ p ∈ ps, p.IsOf Spelling.number)
    {rest : Text} (hb : atBoundary rest = true) (k : Nat) (cursor : Cursor)
    (hrest : cursor.rest = Segment.texts ps ++ rest) :
    cursor.numbers (ps.length + k) =
      (Segment.tokens cursor.consumed ps ++ ((cursor.pass (Segment.texts ps) rest).numbers k).1,
        ((cursor.pass (Segment.texts ps) rest).numbers k).2) := by
  -- Induction on the row, the cursor moving on behind each of its segments.
  induction ps generalizing cursor with
  | nil =>
    have hsame : cursor.pass [] rest = cursor := by
      rw [show rest = cursor.rest from hrest.symm, pass_nil]
    simp [hsame]
  | cons p ps ih =>
    have hps' : ∀ q ∈ ps, q.IsOf Spelling.number := fun q hq => hps q (List.mem_cons_of_mem _ hq)
    rw [Segment.texts_cons, List.append_assoc] at hrest
    have hread := (hps p (List.mem_cons_self ..)).read matchNumber_reads cursor hrest
      (Segment.atBoundary_texts hps' hb)
    have hrow := ih hps' (cursor.pass p.text (Segment.texts ps ++ rest)) rfl
    rw [List.length_cons, Nat.add_right_comm]
    simp [numbers, number, hread, hrow]

/-- Behind the numbers that were read no further number is read. -/
theorem numbers_behind {k : Nat} {ps : List (Segment Int)} (hps : ∀ p ∈ ps, p.IsOf Spelling.number)
    (hk : ps.length ≤ k) {rest : Text} (hb : atBoundary rest = true) {cursor : Cursor}
    (hrest : cursor.rest = Segment.texts ps ++ rest)
    (h : cursor.numbers k =
      (Segment.tokens cursor.consumed ps, cursor.pass (Segment.texts ps) rest)) :
    (cursor.pass (Segment.texts ps) rest).numbers (k - ps.length) =
      ([], cursor.pass (Segment.texts ps) rest) := by
  -- Read once more, the row would be longer by what is read behind it.
  have happend := numbers_append hps hb (k - ps.length) cursor hrest
  rw [Nat.add_sub_cancel' hk, h, Prod.mk.injEq] at happend
  exact Prod.ext (List.self_eq_append_right.mp happend.1) happend.2.symm

/-- In front of a closed text no number is read. -/
theorem numbers_of_isClosed (k : Nat) {cursor : Cursor} (h : IsClosed cursor.rest) :
    cursor.numbers k = ([], cursor) := by
  cases k with
  | zero => rfl
  | succ k =>
    have hread := read_of_scan?_eq_none
      (scan?_of_isClosed matchNumber_reads Spelling.number_head_ne h)
    simp [numbers, number, hread]

/-- The numbers that were read stand in a row. -/
theorem exists_segments_of_numbers (k : Nat) (cursor : Cursor)
    (hb : atBoundary cursor.rest = true) :
    ∃ ps tail, (∀ p ∈ ps, Segment.IsOf Spelling.number p) ∧ ps.length ≤ k ∧
      atBoundary tail = true ∧ cursor.rest = Segment.texts ps ++ tail ∧
      cursor.numbers k =
        (Segment.tokens cursor.consumed ps, cursor.pass (Segment.texts ps) tail) := by
  -- Induction on the numbers still wanted: either none is read, or a segment is passed.
  induction k generalizing cursor with
  | zero => exact ⟨[], cursor.rest, by simp, Nat.le_refl 0, hb, rfl, by simp [numbers]⟩
  | succ k ih =>
    cases hread : read matchNumber cursor with
    | mk found next =>
      cases found with
      | none => exact ⟨[], cursor.rest, by simp, Nat.zero_le _, hb, rfl, by
          simp [numbers, number, hread]⟩
      | some n =>
        obtain ⟨p, after, hp, hrest, hafter, rfl, rfl⟩ :=
          exists_segment_of_read matchNumber_reads hb hread
        obtain ⟨ps, tail, hps, hlen, htail, hrest', hrow⟩ :=
          ih (cursor.pass p.text after) hafter
        refine ⟨p :: ps, tail, List.forall_mem_cons.mpr ⟨hp, hps⟩, Nat.succ_le_succ hlen, htail,
          ?_, ?_⟩
        · rw [hrest, show after = _ from hrest', Segment.texts_cons, List.append_assoc]
        · simp [numbers, number, hread, hrow]

/-- The numbers that were read stand in a row, and start with those that are known to. -/
theorem exists_segments_behind {ps : List (Segment Int)} (hps : ∀ p ∈ ps, p.IsOf Spelling.number)
    {rest : Text} (hb : atBoundary rest = true) {k : Nat} (hk : ps.length ≤ k) (cursor : Cursor)
    (hrest : cursor.rest = Segment.texts ps ++ rest) :
    ∃ qs tail, (∀ q ∈ qs, Segment.IsOf Spelling.number q) ∧ ps.length + qs.length ≤ k ∧
      atBoundary tail = true ∧ rest = Segment.texts qs ++ tail ∧
      cursor.numbers k = (Segment.tokens cursor.consumed (ps ++ qs),
        cursor.pass (Segment.texts (ps ++ qs)) tail) := by
  obtain ⟨qs, tail, hqs, hlen, htail, hrest', hrow⟩ :=
    exists_segments_of_numbers (k - ps.length) (cursor.pass (Segment.texts ps) rest) hb
  refine ⟨qs, tail, hqs, by omega, htail, hrest', ?_⟩
  have happend := numbers_append hps hb (k - ps.length) cursor hrest
  rw [Nat.add_sub_cancel' hk, hrow] at happend
  rw [happend, Segment.tokens_append, Segment.texts_append, pass_pass, pass_consumed]

/-- An argument is a string that is no comment. -/
def Spelling.argument : Spelling Text := fun lexeme value =>
  Spelling.string lexeme value ∧ lexeme.head? ≠ some '#'

theorem Segment.IsOf.string {p : Segment Text} (hp : p.IsOf Spelling.argument) :
    p.IsOf Spelling.string :=
  ⟨hp.blank, hp.gap_ne_nil, hp.spelled.1⟩

/-- A cursor in front of an argument is not in front of a comment. -/
theorem Segment.IsOf.isCommented {p : Segment Text} (hp : p.IsOf Spelling.argument)
    {cursor : Cursor} {after : Text} (hrest : cursor.rest = p.text ++ after) :
    cursor.isCommented = false := by
  have hflush := matchString_reads.flush hp.spelled.1
  rw [isCommented_eq_false_iff, hrest, Segment.text, List.append_assoc,
    trimStart_append_of_flush hp.blank (hflush.append after), hflush.head?_append]
  exact hp.spelled.2

/-- A string read by a cursor that is not in front of a comment is an argument. -/
theorem Segment.IsOf.argument {p : Segment Text} (hp : p.IsOf Spelling.string) {cursor : Cursor}
    {after : Text} (hrest : cursor.rest = p.text ++ after) (h : cursor.isCommented = false) :
    p.IsOf Spelling.argument := by
  have hflush := matchString_reads.flush hp.spelled
  rw [isCommented_eq_false_iff, hrest, Segment.text, List.append_assoc,
    trimStart_append_of_flush hp.blank (hflush.append after), hflush.head?_append] at h
  exact ⟨hp.blank, hp.gap_ne_nil, hp.spelled, h⟩

theorem scan?_matchString_of_allBlank {cursor : Cursor} (h : allBlank cursor.rest = true) :
    scan? matchString cursor = none := by
  refine scan?_eq_none_of_head matchString_reads fun lexeme value hspelled heq => ?_
  obtain ⟨c, rest, rfl, -⟩ := matchString_reads.flush hspelled
  simp [trimStart_of_allBlank h] at heq

theorem arguments_of_scan?_eq_none {cursor : Cursor} (h : scan? matchString cursor = none) :
    cursor.arguments = ([], cursor) := by
  rw [arguments]
  split
  · rfl
  · split
    · next hfound => simp [h] at hfound
    · rfl

theorem arguments_of_scan? {cursor next : Cursor} {token : Token Text}
    (hcomment : cursor.isCommented = false) (h : scan? matchString cursor = some (token, next)) :
    cursor.arguments = (token :: next.arguments.1, next.arguments.2) := by
  rw [arguments, if_neg (by simp [hcomment])]
  split
  · next hfound =>
    obtain ⟨rfl, rfl⟩ := Prod.mk.inj (Option.some.inj (h.symm.trans hfound))
    rfl
  · next hfound => simp [h] at hfound

/-- Arguments that stand in a row are read first, and then further ones behind them. -/
theorem arguments_append {ps : List (Segment Text)} (hps : ∀ p ∈ ps, p.IsOf Spelling.argument)
    {rest : Text} (hb : atBoundary rest = true) (cursor : Cursor)
    (hrest : cursor.rest = Segment.texts ps ++ rest) :
    cursor.arguments =
      (Segment.tokens cursor.consumed ps ++ (cursor.pass (Segment.texts ps) rest).arguments.1,
        (cursor.pass (Segment.texts ps) rest).arguments.2) := by
  -- Induction on the row; an argument is flush and no comment, so it does not end the reading.
  induction ps generalizing cursor with
  | nil =>
    have hsame : cursor.pass [] rest = cursor := by
      rw [show rest = cursor.rest from hrest.symm, pass_nil]
    simp [hsame]
  | cons p ps ih =>
    have hp := hps p (List.mem_cons_self ..)
    have hps' : ∀ q ∈ ps, q.IsOf Spelling.argument := fun q hq => hps q (List.mem_cons_of_mem _ hq)
    rw [Segment.texts_cons, List.append_assoc] at hrest
    have hscan := scan?_of_spelled matchString_reads hrest hp.blank hp.spelled.1
      (Segment.atBoundary_texts hps' hb)
    have hrow := ih hps' (cursor.pass p.text (Segment.texts ps ++ rest)) rfl
    rw [arguments_of_scan? (hp.isCommented hrest) hscan]
    rw [show p.gap ++ p.lexeme = p.text from rfl, hrow]
    simp

/-- Behind the arguments that were read no further argument is read. -/
theorem arguments_behind {ps : List (Segment Text)} (hps : ∀ p ∈ ps, p.IsOf Spelling.argument)
    {rest : Text} (hb : atBoundary rest = true) {cursor : Cursor}
    (hrest : cursor.rest = Segment.texts ps ++ rest)
    (h : cursor.arguments =
      (Segment.tokens cursor.consumed ps, cursor.pass (Segment.texts ps) rest)) :
    (cursor.pass (Segment.texts ps) rest).arguments =
      ([], cursor.pass (Segment.texts ps) rest) := by
  have happend := arguments_append hps hb cursor hrest
  rw [h, Prod.mk.injEq] at happend
  exact Prod.ext (List.self_eq_append_right.mp happend.1) happend.2.symm

/-- In front of a closed text no argument is read. -/
theorem arguments_of_isClosed {cursor : Cursor} (h : IsClosed cursor.rest) :
    cursor.arguments = ([], cursor) := by
  by_cases hcomment : cursor.isCommented = true
  · rw [arguments, if_pos hcomment]
  · refine arguments_of_scan?_eq_none (scan?_matchString_of_allBlank (h.allBlank fun hhead => ?_))
    exact hcomment (isCommented_iff.mpr hhead)

/-- The arguments that were read stand in a row. -/
theorem exists_segments_of_arguments (cursor : Cursor) (hb : atBoundary cursor.rest = true) :
    ∃ ps tail, (∀ p ∈ ps, Segment.IsOf Spelling.argument p) ∧ atBoundary tail = true ∧
      cursor.rest = Segment.texts ps ++ tail ∧
      cursor.arguments =
        (Segment.tokens cursor.consumed ps, cursor.pass (Segment.texts ps) tail) := by
  -- Follows the reading: a comment, an argument and further ones, or nothing that can be read.
  fun_induction arguments cursor with
  | case1 cursor hcomment => exact ⟨[], cursor.rest, by simp, hb, rfl, by simp⟩
  | case2 cursor hcomment argument next hscan _ rest last hrow ih =>
    obtain ⟨p, after, hp, hrest, hafter, rfl, rfl⟩ :=
      exists_segment_of_read matchString_reads hb (read_eq_some_iff.mpr hscan)
    obtain ⟨ps, tail, hps, htail, hrest', hrow'⟩ := ih hafter
    rw [hrow, Prod.mk.injEq] at hrow'
    obtain ⟨rfl, rfl⟩ := hrow'
    refine ⟨p :: ps, tail, List.forall_mem_cons.mpr ⟨hp.argument hrest (by simpa using hcomment),
      hps⟩, htail, ?_, ?_⟩
    · rw [hrest, show after = _ from hrest', Segment.texts_cons, List.append_assoc]
    · simp
  | case3 cursor hcomment hscan => exact ⟨[], cursor.rest, by simp, hb, rfl, by simp⟩

/-! ## Where nothing is read -/

/-- A token of the class stands at the start of a text, behind white space and in front of a
boundary. -/
def Spelling.Starts (spelling : Spelling α) (text : Text) : Prop :=
  ∃ p after, Segment.IsOf spelling p ∧ text = p.text ++ after ∧ atBoundary after = true

/-- The cursor stays where it is if no token of the class starts there. -/
theorem read_eq_none_iff {m : Matcher α} {spelling : Spelling α} (hm : m.Reads spelling)
    (cursor : Cursor) (hb : atBoundary cursor.rest = true) :
    read m cursor = (none, cursor) ↔ ¬ spelling.Starts cursor.rest := by
  constructor
  · rintro hread ⟨p, after, hp, hrest, hafter⟩
    rw [hp.read hm cursor hrest hafter] at hread
    cases hread
  · intro hnot
    rcases hread : read m cursor with ⟨_ | token, next⟩
    · rw [(scan?_of_read_eq_none hread).2]
    · obtain ⟨p, after, hp, hrest, hafter, -⟩ := exists_segment_of_read hm hb hread
      exact absurd ⟨p, after, hp, hrest, hafter⟩ hnot

/-- The row of numbers ends where no number starts. -/
theorem numbers_eq_nil_iff (cursor : Cursor) (hb : atBoundary cursor.rest = true) (k : Nat) :
    cursor.numbers (k + 1) = ([], cursor) ↔ ¬ Spelling.number.Starts cursor.rest := by
  rw [← read_eq_none_iff matchNumber_reads cursor hb]
  rcases hread : read matchNumber cursor with ⟨_ | token, next⟩
  · simp [numbers, number, hread, (scan?_of_read_eq_none hread).2]
  · simp [numbers, number, hread]

/-- The row of arguments ends where no argument starts. -/
theorem arguments_eq_nil_iff (cursor : Cursor) (hb : atBoundary cursor.rest = true) :
    cursor.arguments = ([], cursor) ↔ ¬ Spelling.argument.Starts cursor.rest := by
  constructor
  · rintro harguments ⟨p, after, hp, hrest, hafter⟩
    have hscan := scan?_of_spelled matchString_reads hrest hp.blank hp.spelled.1 hafter
    rw [arguments_of_scan? (hp.isCommented hrest) hscan] at harguments
    cases harguments
  · intro hnot
    by_cases hcomment : cursor.isCommented = true
    · rw [arguments, if_pos hcomment]
    -- A string that is no comment would be an argument.
    · refine arguments_of_scan?_eq_none ?_
      by_contra hsome
      obtain ⟨⟨token, next⟩, hscan⟩ := Option.ne_none_iff_exists'.mp hsome
      obtain ⟨p, after, hp, hrest, hafter, -⟩ :=
        exists_segment_of_read matchString_reads hb (read_eq_some_iff.mpr hscan)
      exact hnot ⟨p, after, hp.argument hrest (by simpa using hcomment), hrest, hafter⟩

/-! ## Comments -/

namespace Spelling

theorem comment_eq_cons {lexeme value : Text} (h : comment lexeme value) :
    ∃ body, lexeme = '#' :: body :=
  List.head?_eq_some_iff.mp h.1

theorem comment_flush {lexeme value : Text} (h : comment lexeme value) : IsFlush lexeme := by
  obtain ⟨body, rfl⟩ := comment_eq_cons h
  exact isFlush_cons.mpr (by decide)

end Spelling

/-- A cursor in front of a comment, with white space between them and nothing but white space behind
it, reads the comment. -/
theorem comment_of_spelled {cursor : Cursor} {gap lexeme after value : Text}
    (hrest : cursor.rest = gap ++ lexeme ++ after) (hgap : allBlank gap = true)
    (hspelled : Spelling.comment lexeme value) (hafter : allBlank after = true) :
    cursor.comment = (some ((⟨gap, lexeme, value⟩ : Segment Text).token cursor.consumed),
      cursor.pass (gap ++ lexeme) after) := by
  have hflush := (Spelling.comment_flush hspelled).append after
  obtain ⟨body, hbody⟩ := Spelling.comment_eq_cons hspelled
  rw [List.append_assoc] at hrest
  have htrim : trimStart cursor.rest = lexeme ++ after := by
    rw [hrest, trimStart_append_of_flush hgap hflush]
  have hlead : leading cursor.rest = gap := by rw [hrest, leading_append_of_flush hgap hflush]
  -- The comment goes up to the last character that is no white space.
  have hmatch : matchComment (lexeme ++ after) = some (lexeme.length, value) := by
    have hend : trimEnd (lexeme ++ after) = lexeme := by
      rw [trimEnd_append hafter, hspelled.2.1]
    rw [hspelled.2.2]
    rw [hbody, List.cons_append] at hend ⊢
    rw [matchComment, hend]
  refine read_eq_some_iff.mpr (scan?_eq_some_iff.mpr
    ⟨lexeme.length, ?_, ?_, ?_, ?_, ?_, ?_⟩)
  · rw [htrim, hmatch]
    rfl
  · rw [htrim, List.take_left' rfl, hbody]
    simp
  · rw [htrim, List.drop_left' rfl]
    exact atBoundary_of_allBlank hafter
  · simp [hlead, Segment.token, offset]
  · simp [htrim, Segment.token]
  · simp [htrim, hlead, Cursor.pass]

/-- A segment that is a comment, with nothing but white space behind it, is read. -/
theorem comment_of_segment {p : Segment Text} (hp : p.IsOf Spelling.comment) {after : Text}
    (hafter : allBlank after = true) {cursor : Cursor} (hrest : cursor.rest = p.text ++ after) :
    cursor.comment = (some (p.token cursor.consumed), cursor.pass p.text after) :=
  comment_of_spelled hrest hp.blank hp.spelled hafter

/-- The comment that a sign behind white space starts. -/
def commentSegment (gap text : Text) : Segment Text :=
  ⟨gap, trimEnd ('#' :: text), trimEnd ('#' :: text)⟩

theorem isOf_commentSegment {gap : Text} (hgap : allBlank gap = true) (hne : gap ≠ [])
    (text : Text) : (commentSegment gap text).IsOf Spelling.comment where
  blank := hgap
  gap_ne_nil := hne
  spelled := by
    -- Trimming at the end does not reach the comment sign.
    refine ⟨?_, trimEnd_trimEnd _, rfl⟩
    rw [commentSegment, trimEnd_cons (by decide), List.head?_cons]

/-- A comment goes up to the white space at the end. -/
theorem exists_commentSegment_append (gap text : Text) :
    ∃ after, gap ++ '#' :: text = (commentSegment gap text).text ++ after ∧
      allBlank after = true := by
  obtain ⟨after, hsplit, hafter⟩ := eq_trimEnd_append ('#' :: text)
  refine ⟨after, ?_, hafter⟩
  rw [commentSegment, Segment.text, List.append_assoc, ← hsplit]

/-- A text in front of which a comment is found starts with white space and a comment sign. -/
theorem exists_sign {rest : Text} (h : (trimStart rest).head? = some '#') :
    ∃ gap text, rest = gap ++ '#' :: text ∧ allBlank gap = true := by
  obtain ⟨text, htext⟩ := List.head?_eq_some_iff.mp h
  exact ⟨leading rest, text, by rw [← htext, leading_append_trimStart], allBlank_leading rest⟩

/-- At a boundary there is white space in front of a comment sign. -/
theorem leading_sign {rest : Text} (hb : atBoundary rest = true)
    (h : (trimStart rest).head? = some '#') :
    ∃ text, rest = leading rest ++ '#' :: text ∧ trimStart rest = '#' :: text ∧
      leading rest ≠ [] := by
  obtain ⟨gap, text, rfl, hgap⟩ := exists_sign h
  have hflush : IsFlush ('#' :: text) := isFlush_cons.mpr (by decide)
  rw [leading_append_of_flush hgap hflush, trimStart_append_of_flush hgap hflush]
  exact ⟨text, rfl, rfl, ne_nil_of_atBoundary hb hflush⟩

/-- In front of a comment there is a segment that is a comment, and only white space behind it. -/
theorem exists_comment {rest : Text} (hb : atBoundary rest = true)
    (h : (trimStart rest).head? = some '#') :
    ∃ p after, Segment.IsOf Spelling.comment p ∧ rest = p.text ++ after ∧
      allBlank after = true := by
  obtain ⟨text, hrest, -, hne⟩ := leading_sign hb h
  obtain ⟨after, hsplit, hafter⟩ := exists_commentSegment_append (leading rest) text
  exact ⟨_, after, isOf_commentSegment (allBlank_leading rest) hne text, hrest.trans hsplit, hafter⟩

/-- Without a comment in front of it the cursor reads none. -/
theorem comment_of_not_isCommented {cursor : Cursor} (h : cursor.isCommented = false) :
    cursor.comment = (none, cursor) := by
  refine read_of_scan?_eq_none ?_
  cases hscan : scan? matchComment cursor with
  | none => rfl
  | some found =>
    obtain ⟨token, next⟩ := found
    obtain ⟨n, hfound, -⟩ := scan?_eq_some_iff.mp hscan
    unfold matchComment at hfound
    split at hfound
    · next body hbody => simp [isCommented, hbody] at h
    · cases hfound

end ItemFilter
