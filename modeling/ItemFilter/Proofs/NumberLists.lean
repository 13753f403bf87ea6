import ItemFilter.Proofs.Rewriting

/-!
# Rows of numbers

A colour and a sound take several numbers, each with bounds of its own. All numbers outside their
bounds are reported, and the numbers are accepted together or not at all. A colour in hexadecimal
stands for the first numbers of its row: the line is rewritten, and the channels that are derived
from it are read like numbers that were written, except that none of them is out of bounds. Places
are places of the rewritten line.

## Main definitions

* `ArgumentRule.TakesNumbers`: the rules with several numbers, and the bounds of these
* `NumberRow`: the operator, the numbers and the tail of a row of numbers
* `NumberRow.Begins`, `NumberRow.Divides`: a text that begins with a row, and one taken apart
* `NumberRow.bad`: the numbers that are outside their bounds

## Main results

* `NumberRow.Begins.exists_divides`: a row can be continued up to its last number
* `NumberRow.Divides.bad_eq`: the numbers outside their bounds are written ones
* `Classifier.parse_numberList`: what is found in the line of a row of numbers
-/

namespace ItemFilter

open Text Rule Outcome HexColor
open Cursor hiding read

/-- The rules that take several numbers: how few there have to be, and the bounds of each. -/
inductive ArgumentRule.TakesNumbers : ArgumentRule → Nat → List Bounds → Prop
  /-- A colour takes three or four channels. -/
  | color : TakesNumbers .color 3 (List.replicate 4 channelBounds)
  /-- A sound takes a volume, perhaps. -/
  | alertSound : TakesNumbers .alertSound 1 [soundBounds, volumeBounds]

/-! ## Rows of numbers -/

/-- A row of numbers as it stands behind its keyword. -/
structure NumberRow where
  /-- The operator, if there is one. -/
  operator : Option (Segment Operator)
  /-- The colour in hexadecimal that has to be expanded, if there is one. -/
  color : Option (Segment Text)
  /-- The numbers that are written, one after another. -/
  written : List (Segment Int)
  /-- What follows the numbers. -/
  tail : Text

namespace NumberRow

/-- The numbers that a colour in hexadecimal stands for, as they are written when it is expanded. -/
def derived (row : NumberRow) : List (Segment Int) :=
  row.color.toList.flatMap fun p => channelSegments p.gap (channelsOf p.lexeme)

/-- The numbers of the row. -/
def numbers (row : NumberRow) : List (Segment Int) :=
  row.derived ++ row.written

/-- The characters of the row as it is written. -/
def text (row : NumberRow) : Text :=
  Segment.texts row.operator.toList ++ (Segment.texts row.color.toList ++ Segment.texts row.written)

/-- The characters of the row with its colour expanded. -/
def expandedText (row : NumberRow) : Text :=
  Segment.texts row.operator.toList ++ Segment.texts row.numbers

/-- The text begins with the row: an operator that is `=`, if there is one, a colour in hexadecimal
where a colour is wanted, and numbers, neither too few nor too many of them. -/
structure Begins (rule : ArgumentRule) (least most : Nat) (text : Text) (row : NumberRow) :
    Prop where
  /-- The operator is a segment of the line. -/
  operator : ∀ p ∈ row.operator, p.IsOf Spelling.operator
  /-- No other operator is allowed. -/
  equality : IsEquality (row.operator.map Segment.value)
  /-- The colour is a segment of the line. -/
  color : ∀ p ∈ row.color, p.IsOf Spelling.hex
  /-- Only colours are expanded. -/
  expandable : row.color ≠ none → rule = .color
  /-- The numbers are segments of the line. -/
  written : ∀ p ∈ row.written, p.IsOf Spelling.number
  /-- There are enough numbers. -/
  least_le : least ≤ row.numbers.length
  /-- There are not too many numbers. -/
  le_most : row.numbers.length ≤ most
  /-- The row ends at a boundary. -/
  boundary : atBoundary row.tail = true
  /-- The row makes up the text. -/
  text_eq : text = row.text ++ row.tail

/-- The text is taken apart into the row: it begins with the row, and no further number follows if
there may be one. -/
structure Divides (rule : ArgumentRule) (least most : Nat) (text : Text) (row : NumberRow) : Prop
    extends Begins rule least most text row where
  /-- The row ends with its last number. -/
  stops : row.numbers.length = most ∨ ¬ Spelling.number.Starts row.tail

variable {rule : ArgumentRule} {least most : Nat} {text : Text} {row : NumberRow}

/-- The numbers of a row are segments of the line with its colour expanded. -/
theorem Begins.isOf_numbers (h : row.Begins rule least most text) :
    ∀ p ∈ row.numbers, p.IsOf Spelling.number := by
  refine List.forall_mem_append.mpr ⟨fun p hp => ?_, h.written⟩
  obtain ⟨color, hcolor, hp⟩ := List.mem_flatMap.mp hp
  have hhex := h.color color (by simpa using hcolor)
  exact channelSegments_isOf hhex.blank hhex.gap_ne_nil
    (channelsOf_of_spelled hhex.spelled).2.1 p hp

/-- A row starts at a boundary. -/
theorem Begins.atBoundary_text (h : row.Begins rule least most text) : atBoundary text = true := by
  rw [h.text_eq, NumberRow.text, List.append_assoc, List.append_assoc]
  exact Segment.atBoundary_texts (fun p hp => h.operator p (by simpa using hp))
    (Segment.atBoundary_texts (fun p hp => h.color p (by simpa using hp))
      (Segment.atBoundary_texts h.written h.boundary))

/-- Without a colour the row is written as it is read. -/
theorem Begins.text_eq_of_plain (h : row.Begins rule least most text) (hplain : row.color = none) :
    text = row.expandedText ++ row.tail := by
  rw [h.text_eq]
  simp [NumberRow.text, expandedText, numbers, derived, hplain]

/-- A row can be continued up to its last number. -/
theorem Begins.exists_divides (h : row.Begins rule least most text) :
    ∃ row : NumberRow, row.Divides rule least most text := by
  -- The further numbers are those that a cursor behind the row reads.
  obtain ⟨qs, tail, hqs, hlength, htail, hrest, hrow⟩ :=
    exists_segments_of_numbers (most - row.numbers.length) (atStart row.tail) h.boundary
  have hnumbers : (NumberRow.mk row.operator row.color (row.written ++ qs) tail).numbers =
      row.numbers ++ qs := (List.append_assoc ..).symm
  have hle := h.le_most
  refine ⟨⟨row.operator, row.color, row.written ++ qs, tail⟩,
    ⟨h.operator, h.equality, h.color, h.expandable, List.forall_mem_append.mpr ⟨h.written, hqs⟩,
      ?_, ?_, htail, ?_⟩, ?_⟩
  · rw [hnumbers, List.length_append]
    exact Nat.le_add_right_of_le h.least_le
  · rw [hnumbers, List.length_append]
    omega
  · rw [h.text_eq, show row.tail = _ from hrest]
    simp [NumberRow.text]
  · rw [hnumbers, List.length_append]
    have hbehind := numbers_behind hqs hlength htail hrest hrow
    cases hmore : most - row.numbers.length - qs.length with
    | zero => exact Or.inl (by omega)
    | succ k =>
      rw [hmore] at hbehind
      exact Or.inr ((numbers_eq_nil_iff (Cursor.pass _ _ tail) htail k).mp hbehind)

end NumberRow

/-! ## What is found -/

namespace NumberRow

variable (bounds : List Bounds) (keyword : Keyword) (before : Text) (row : NumberRow)

/-- The numbers with their places behind the text `before`. -/
def taken : List (Token Int) :=
  Segment.tokens (before ++ Segment.texts row.operator.toList) row.numbers

/-- The numbers that are outside their bounds, with these. -/
def bad : List (Token Int × Bounds) :=
  ((row.taken before).zip bounds).filter fun n => !n.2.contains n.1.value

/-- The line that starts with `before` and goes on with the row, its colour expanded. -/
def rewritten : Text :=
  before ++ row.expandedText ++ row.tail

/-- What is accepted and reported of the numbers: all of them, or those outside their bounds. -/
def checked : Outcome :=
  { operator := row.operator.map (Segment.token before)
    values := if (row.bad bounds before).isEmpty then
      (row.taken before).map (Located.map .number) else []
    diagnostics := (row.bad bounds before).map fun n =>
      badValue keyword n.1.range n.2.display .actions }

/-- The comment behind the numbers. -/
def comment : Option (Token Text) :=
  if (trimStart row.tail).head? = some '#' then
    some ⟨trim (trimStart row.tail).tail,
      spanOf (before ++ row.expandedText ++ leading row.tail) (trimEnd (trimStart row.tail))⟩
  else none

/-- The problems of the numbers: those outside their bounds, or else text that is left over. -/
def problems : List (Diagnostic Span) :=
  (row.checked bounds keyword before).diagnostics ++
    if (row.bad bounds before).isEmpty && !allBlank row.tail &&
        (trimStart row.tail).head? ≠ some '#' then
      [leftoverText (row.rewritten before)
        (spanOf (before ++ row.expandedText) (trimEnd row.tail))]
    else []

end NumberRow

/-! ## Numbers that are written -/

namespace Rule

variable {rule : ArgumentRule} {least : Nat} {bounds : List Bounds} {row : NumberRow}
  (keyword : Keyword)

/-- Numbers that are checked are accepted together or reported one by one. -/
theorem checkNumbers_taken (h : row.numbers.length ≤ bounds.length) (before : Text) :
    checkNumbers keyword { operator := row.operator.map (Segment.token before) }
      ((row.taken before).zip bounds) = row.checked bounds keyword before := by
  have hfst : ((row.taken before).zip bounds).map (fun n => n.1.map Value.number) =
      (row.taken before).map (Located.map .number) := by
    have hlength : (row.taken before).length ≤ bounds.length := by
      rwa [NumberRow.taken, Segment.length_tokens]
    have hzip := List.map_fst_zip hlength
    conv_rhs => rw [← hzip, List.map_map]
    rfl
  have hgood : (∀ n ∈ (row.taken before).zip bounds, n.2.contains n.1.value = true) ↔
      (row.bad bounds before).isEmpty = true := by
    simp [NumberRow.bad, List.isEmpty_iff, List.filter_eq_nil_iff]
  rw [checkNumbers_eq, NumberRow.checked]
  split
  · next hall => rw [if_pos (hgood.mp hall), hfst, List.isEmpty_iff.mp (hgood.mp hall)]; rfl
  · next hall => rw [if_neg (hgood.not.mp hall)]; rfl

end Rule

namespace NumberRow

variable {rule : ArgumentRule} {least most : Nat} {row : NumberRow} {cursor : Cursor}

/-- The operator and the numbers are read from a line that starts with them, whatever they stand
for. -/
theorem reads_of_numbers (h : row.Divides rule least most cursor.rest) (hleast : 0 < least)
    (hplain : row.color = none) :
    cursor.operator = (row.operator.map (Segment.token cursor.consumed),
      cursor.pass (Segment.texts row.operator.toList) (Segment.texts row.numbers ++ row.tail)) ∧
    (cursor.pass (Segment.texts row.operator.toList)
      (Segment.texts row.numbers ++ row.tail)).numbers most =
        (row.taken cursor.consumed, cursor.pass row.expandedText row.tail) := by
  have hrest : cursor.rest = Segment.texts row.operator.toList ++
      (Segment.texts row.numbers ++ row.tail) := by
    rw [h.text_eq_of_plain hplain, expandedText, List.append_assoc]
  constructor
  · obtain ⟨p, ps, hps⟩ := List.exists_cons_of_length_pos (Nat.lt_of_lt_of_le hleast h.least_le)
    have hp : p.IsOf Spelling.number := h.isOf_numbers p (by simp [hps])
    rw [hps, Segment.texts_cons, List.append_assoc] at hrest ⊢
    exact operator_of_segments h.operator Spelling.operator_apart_number hp
      (matchNumber_reads.flush hp.spelled) hrest
  -- Behind the numbers no further one is read, or no further one is wanted.
  · have hstop : (cursor.pass row.expandedText row.tail).numbers (most - row.numbers.length) =
        ([], cursor.pass row.expandedText row.tail) := by
      cases hmore : most - row.numbers.length with
      | zero => rfl
      | succ k =>
        refine (numbers_eq_nil_iff (cursor.pass _ row.tail) h.boundary k).mpr ?_
        exact h.stops.resolve_left (by omega)
    have happend := numbers_append h.isOf_numbers h.boundary (most - row.numbers.length)
      (cursor.pass (Segment.texts row.operator.toList) (Segment.texts row.numbers ++ row.tail)) rfl
    rw [Nat.add_sub_cancel' h.le_most, pass_pass] at happend
    rw [happend]
    change (_ ++ ((cursor.pass row.expandedText row.tail).numbers _).1,
      ((cursor.pass row.expandedText row.tail).numbers _).2) = _
    rw [hstop, List.append_nil]
    rfl

end NumberRow

/-- With the same bounds for all, each number is paired with these bounds. -/
theorem zip_replicate_of_le {α β : Type} {xs : List α} {n : Nat} (b : β) (h : xs.length ≤ n) :
    xs.zip (List.replicate n b) = xs.map fun x => (x, b) :=
  List.ext_getElem (by simp [h]) fun i _ _ => by simp

namespace Rule

variable {rule : ArgumentRule} {least : Nat} {bounds : List Bounds} {row : NumberRow}
  (keyword : Keyword) (cursor : Cursor)

/-- A row of numbers in terms of the numbers, if no colour has to be expanded. -/
theorem arguments_of_numbers (catalog : Catalog) (hrule : rule.TakesNumbers least bounds)
    (h : row.Divides rule least bounds.length cursor.rest) (hplain : row.color = none) :
    arguments catalog keyword rule cursor =
      rule.finish keyword (row.checked bounds keyword cursor.consumed)
        (cursor.pass row.expandedText row.tail) := by
  have hleast : 0 < least := by cases hrule <;> decide
  obtain ⟨hoperator, hnumbers⟩ := NumberRow.reads_of_numbers h hleast hplain
  have hlength : (row.taken cursor.consumed).length = row.numbers.length := by
    rw [NumberRow.taken, Segment.length_tokens]
  have hequality : IsEquality
      ((row.operator.map (Segment.token cursor.consumed)).map Located.value) := by
    rw [Segment.map_value_token]
    exact h.equality
  rw [← checkNumbers_taken keyword h.le_most]
  cases hrule with
  | color =>
    obtain ⟨p, ps, hps⟩ := List.exists_cons_of_length_pos (Nat.lt_of_lt_of_le hleast h.least_le)
    have hp : p.IsOf Spelling.number := h.isOf_numbers p (by simp [hps])
    have hrest : (cursor.pass (Segment.texts row.operator.toList)
        (Segment.texts row.numbers ++ row.tail)).rest =
          p.text ++ (Segment.texts ps ++ row.tail) := by
      simp [hps]
    -- All channels have the same bounds.
    have hzip : (row.taken cursor.consumed).zip (List.replicate 4 channelBounds) =
        (row.taken cursor.consumed).map fun n => (n, channelBounds) :=
      zip_replicate_of_le channelBounds (hlength ▸ h.le_most)
    have hthree : 3 ≤ (row.taken cursor.consumed).length := hlength ▸ h.least_le
    rw [hzip]
    change color keyword cursor = _
    rw [color_eq keyword hoperator hequality (expandHex_of_number hp hrest), colorFrom]
    rw [List.length_replicate] at hnumbers
    rw [hnumbers, if_neg (Nat.not_lt.mpr hthree)]
    rfl
  | alertSound =>
    obtain ⟨n, ns, htaken⟩ : ∃ n ns, row.taken cursor.consumed = n :: ns :=
      List.exists_cons_of_length_pos (hlength ▸ Nat.lt_of_lt_of_le hleast h.least_le)
    change alertSound keyword cursor = _
    rw [alertSound, withEquality_of_isEquality hoperator hequality]
    dsimp only
    rw [show 2 = [soundBounds, volumeBounds].length from rfl, hnumbers, htaken]
    rfl

/-- Numbers are in error if one of them is outside its bounds. -/
theorem invalid_checked (before : Text) :
    (row.checked bounds keyword before).invalid = !(row.bad bounds before).isEmpty := by
  rw [Outcome.invalid, NumberRow.checked, List.any_map]
  cases row.bad bounds before with
  | nil => rfl
  | cons n ns => rfl

/-- What a row of numbers comes to, if no colour has to be expanded. -/
theorem read_of_numbers (catalog : Catalog) (hrule : rule.TakesNumbers least bounds)
    (h : row.Divides rule least bounds.length cursor.rest) (hplain : row.color = none)
    (hcontent : cursor.content = extent (row.rewritten cursor.consumed)) :
    ∃ comment, (read catalog keyword rule cursor).1 =
      { row.checked bounds keyword cursor.consumed with
        diagnostics := row.problems bounds keyword cursor.consumed, comment } ∧
      Classifier.trailing comment = row.comment cursor.consumed := by
  have harguments := arguments_of_numbers keyword cursor catalog hrule h hplain
  by_cases hhead : (trimStart row.tail).head? = some '#'
  -- A comment is kept, whether or not the numbers are within their bounds.
  · obtain ⟨text, htail, htrim, hne⟩ := leading_sign h.boundary hhead
    have hgap := allBlank_leading row.tail
    have hallows : rule.allowsComment = true := by cases hrule <;> rfl
    have hproblems : row.problems bounds keyword cursor.consumed =
        (row.checked bounds keyword cursor.consumed).diagnostics := by
      simp [NumberRow.problems, hhead]
    refine ⟨some ⟨trimEnd ('#' :: text),
      spanOf (cursor.consumed ++ row.expandedText ++ leading row.tail)
        (trimEnd ('#' :: text))⟩, ?_, ?_⟩
    · rw [read_of_comment keyword cursor harguments htail hgap hne, if_pos hallows, hproblems]
      rfl
    · rw [NumberRow.comment, if_pos hhead, htrim, List.tail_cons, ← commentBody_trimEnd text]
      rfl
  -- Without a comment, what is left over is reported if all numbers are within their bounds.
  · have hnot : (cursor.pass row.expandedText row.tail).isCommented = false :=
      isCommented_eq_false_iff.mpr hhead
    have hleft : (cursor.pass row.expandedText row.tail).isEmpty = allBlank row.tail := rfl
    refine ⟨none, ?_, by rw [NumberRow.comment, if_neg hhead]; rfl⟩
    rw [read_of_not_isCommented keyword cursor harguments hnot, invalid_checked, hleft,
      NumberRow.problems]
    cases hempty : (row.bad bounds cursor.consumed).isEmpty with
    | false => simp [NumberRow.checked]
    | true =>
      cases hblank : allBlank row.tail with
      | true => simp [NumberRow.checked]
      | false =>
        have hstop : cursor.content.stop =
            byteLength (cursor.consumed ++ row.expandedText ++ trimEnd row.tail) := by
          rw [hcontent, NumberRow.rewritten, extent_stop_append _ hblank]
        simp [hhead, Outcome.report, hstop, Cursor.text, NumberRow.rewritten, offset, spanOf,
          NumberRow.checked]

end Rule

/-! ## Colours that are expanded -/

namespace NumberRow

variable {rule : ArgumentRule} {least most : Nat} {text : Text} {row : NumberRow}

/-- The row with its colour expanded: all of its numbers are written. -/
def plain (row : NumberRow) : NumberRow :=
  { row with color := none, written := row.numbers }

/-- The line with the colour expanded is taken apart like the line. -/
theorem Divides.plain (h : row.Divides rule least most text) :
    row.plain.Divides rule least most (row.expandedText ++ row.tail) where
  operator := h.operator
  equality := h.equality
  color := nofun
  expandable hne := absurd rfl hne
  written := h.isOf_numbers
  least_le := h.least_le
  le_most := h.le_most
  boundary := h.boundary
  text_eq := rfl
  stops := h.stops

/-- A colour to be expanded stands behind the operator. -/
theorem Divides.hexLine (h : row.Divides rule least most text) {p : Segment Text}
    (hcolor : row.color = some p) :
    HexLine text row.operator p (Segment.texts row.written ++ row.tail) where
  operator := h.operator
  equality := h.equality
  hex := h.color p hcolor
  boundary := Segment.atBoundary_texts h.written h.boundary
  rest_eq := by
    rw [h.text_eq, NumberRow.text, hcolor]
    simp

/-- The line with the colour expanded. -/
theorem Divides.rewritten_eq (h : row.Divides rule least most text) {p : Segment Text}
    (hcolor : row.color = some p) (before : Text) :
    row.rewritten before = before ++ Segment.texts row.operator.toList ++ p.gap ++
      decimalText (channelsOf p.lexeme) ++ (Segment.texts row.written ++ row.tail) := by
  have hhex := (h.color p hcolor).spelled
  have hderived : row.derived = channelSegments p.gap (channelsOf p.lexeme) := by
    simp [derived, hcolor]
  rw [rewritten, expandedText, numbers, Segment.texts_append, hderived,
    texts_channelSegments p.gap (channelsOf_ne_nil hhex)]
  simp

/-- The channels of a colour are within their bounds. -/
theorem Divides.contains_derived {bounds : List Bounds} (hrule : rule.TakesNumbers least bounds)
    (h : row.Divides rule least most text) :
    ∀ p ∈ row.derived, ∀ b ∈ bounds, b.contains p.value = true := by
  intro p hp b hb
  obtain ⟨color, hcolor, hp⟩ := List.mem_flatMap.mp hp
  have hsome : row.color = some color := by simpa using hcolor
  obtain rfl := h.expandable (by simp [hsome])
  cases hrule
  obtain rfl := List.eq_of_mem_replicate hb
  obtain ⟨n, hn, hvalue⟩ := value_of_mem_channelSegments hp
  have hlt := (channelsOf_of_spelled (h.color color hsome).spelled).2.1 n hn
  rw [hvalue, Bounds.contains_iff]
  simp only [channelBounds]
  omega

/-- The numbers outside their bounds are among the written ones. -/
theorem Divides.bad_eq {bounds : List Bounds} (hrule : rule.TakesNumbers least bounds)
    (h : row.Divides rule least bounds.length text) (before : Text) :
    row.bad bounds before =
      ((Segment.tokens (before ++ Segment.texts row.operator.toList ++ Segment.texts row.derived)
        row.written).zip (bounds.drop row.derived.length)).filter
          fun n => !n.2.contains n.1.value := by
  have hle : row.derived.length ≤ bounds.length := by
    have hmost := h.le_most
    rw [numbers, List.length_append] at hmost
    omega
  -- The bounds are split where the written numbers start.
  have hzip : (row.taken before).zip bounds =
      (Segment.tokens (before ++ Segment.texts row.operator.toList) row.derived).zip
          (bounds.take row.derived.length) ++
        (Segment.tokens (before ++ Segment.texts row.operator.toList ++
          Segment.texts row.derived) row.written).zip (bounds.drop row.derived.length) := by
    rw [← List.zip_append (by simp [hle]), List.take_append_drop, taken, numbers,
      Segment.tokens_append]
  have hnone : ((Segment.tokens (before ++ Segment.texts row.operator.toList) row.derived).zip
      (bounds.take row.derived.length)).filter (fun n => !n.2.contains n.1.value) = [] := by
    refine List.filter_eq_nil_iff.mpr fun n hn => ?_
    obtain ⟨htoken, hbounds⟩ := List.of_mem_zip hn
    have hvalue : n.1.value ∈ row.derived.map Segment.value := by
      rw [← Segment.map_value_tokens]
      exact List.mem_map_of_mem htoken
    obtain ⟨p, hp, hvalue⟩ := List.mem_map.mp hvalue
    rw [← hvalue, h.contains_derived hrule p hp n.2 (List.mem_of_mem_take hbounds)]
    decide
  rw [bad, hzip, List.filter_append, hnone, List.nil_append]

end NumberRow

/-! ## Lines -/

namespace Classifier

section Row

variable (c : Classifier) {gap rest : Text} {keyword : Keyword} {category : Category}
  {rule : ArgumentRule} {least : Nat} {bounds : List Bounds} {row : NumberRow}
  (hgap : allBlank gap = true) (hkind : keyword.kind = .rule category rule)
  (hrule : rule.TakesNumbers least bounds)

include hgap hkind hrule

/-- What is found in the line of a row of numbers, if no colour has to be expanded. -/
theorem classify_of_numbers (h : row.Divides rule least bounds.length rest)
    (hplain : row.color = none) :
    ∃ parsed, (c.classify (atStart (gap ++ keyword.name.toList ++ rest))).kind = .rule parsed ∧
      parsed.keyword.value = keyword ∧
      parsed.operator = row.operator.map (Segment.token (gap ++ keyword.name.toList)) ∧
      parsed.values = (row.checked bounds keyword (gap ++ keyword.name.toList)).values ∧
      parsed.comment = row.comment (gap ++ keyword.name.toList) ∧
      (c.classify (atStart (gap ++ keyword.name.toList ++ rest))).diagnostics =
        row.problems bounds keyword (gap ++ keyword.name.toList) ∧
      (c.classify (atStart (gap ++ keyword.name.toList ++ rest))).edits = [] := by
  have hcontent : extent (gap ++ keyword.name.toList ++ rest) =
      extent (row.rewritten (gap ++ keyword.name.toList)) := by
    rw [NumberRow.rewritten, List.append_assoc _ row.expandedText, ← h.text_eq_of_plain hplain]
  obtain ⟨comment, hread, hcomment⟩ := Rule.read_of_numbers keyword
    ⟨gap ++ keyword.name.toList, rest, extent (gap ++ keyword.name.toList ++ rest)⟩
    c.catalog hrule h hplain hcontent
  rw [c.classify_rule hkind rfl hgap h.atBoundary_text, ruleLine_eq, hread]
  exact ⟨_, rfl, rfl, rfl, rfl, hcomment, rfl, rfl⟩

/-- A row of numbers and the same row with its colour expanded. -/
theorem edited_of_numbers (h : row.Divides rule least bounds.length rest)
    (hline : Unbroken (gap ++ keyword.name.toList ++ rest)) :
    c.Edited (gap ++ keyword.name.toList ++ rest)
      (row.rewritten (gap ++ keyword.name.toList)) := by
  cases hcolor : row.color with
  | some p =>
    obtain rfl := h.expandable (by simp [hcolor])
    rw [h.rewritten_eq hcolor]
    exact c.edited_of_hexLine hgap h.atBoundary_text hkind (h.hexLine hcolor) hline
  | none =>
    obtain ⟨-, -, -, -, -, -, -, hedits⟩ := c.classify_of_numbers hgap hkind hrule h hcolor
    rw [NumberRow.rewritten, List.append_assoc _ row.expandedText, ← h.text_eq_of_plain hcolor]
    exact c.edited_self hline hedits

end Row

/-- The line of a row of numbers reports every number outside its bounds, and accepts all numbers or
none. If the rest of the line begins with enough numbers behind an operator that is `=`, or none, a
colour in hexadecimal being expanded, it is a row of numbers. The line is rewritten with the colour
expanded, and all places are places of that line. Each number outside its bounds is reported where
it stands, in order, and is one that was written; without any, all numbers are accepted, and text
that is left over is reported with a fix. A comment behind the numbers is kept in either case. -/
theorem parse_numberList (c : Classifier) (location : Location) {line : Text}
    (hline : ∀ x ∈ line, breaksLine x = false) {keyword : Keyword} {category : Category}
    {rule : ArgumentRule} (hkind : keyword.kind = .rule category rule) {least : Nat}
    {bounds : List Bounds} (hrule : rule.TakesNumbers least bounds)
    (hchunk : Text.chunk line = keyword.name.toList)
    (hbegin : ∃ row : NumberRow, row.Begins rule least bounds.length (Text.afterChunk line)) :
    (∃ row : NumberRow, row.Divides rule least bounds.length (Text.afterChunk line)) ∧
    ∀ row : NumberRow, row.Divides rule least bounds.length (Text.afterChunk line) →
      row.bad bounds (leading line ++ keyword.name.toList) =
        ((Segment.tokens (leading line ++ keyword.name.toList ++
          Segment.texts row.operator.toList ++ Segment.texts row.derived) row.written).zip
            (bounds.drop row.derived.length)).filter (fun n => !n.2.contains n.1.value) ∧
      ∃ result parsed, c.parse location line = .ok result ∧
        Document.editLine line result.edits =
          (.ok (), row.rewritten (leading line ++ keyword.name.toList)) ∧
        result.kind = .rule parsed ∧ parsed.keyword.value = keyword ∧
        parsed.operator = (row.operator.map
          (Segment.token (leading line ++ keyword.name.toList))).map
            (Located.mapRange (Range.on location.line)) ∧
        parsed.values =
          (if (row.bad bounds (leading line ++ keyword.name.toList)).isEmpty then
            (row.taken (leading line ++ keyword.name.toList)).map fun n =>
              (n.map .number).mapRange (Range.on location.line)
          else []) ∧
        parsed.comment = (row.comment (leading line ++ keyword.name.toList)).map
          (Located.mapRange (Range.on location.line)) ∧
        result.diagnostics =
          (row.problems bounds keyword (leading line ++ keyword.name.toList)).map
            (Diagnostic.map (Range.on location.line) location.file) := by
  have hsplit : line = leading line ++ keyword.name.toList ++ afterChunk line :=
    eq_of_chunk hchunk
  obtain ⟨begin, hbegin⟩ := hbegin
  refine ⟨hbegin.exists_divides, fun row hrow => ⟨hrow.bad_eq hrule _, ?_⟩⟩
  have hgap := allBlank_leading line
  -- The line with the colour expanded is read alike, and is a row without a colour.
  have hedited := c.edited_of_numbers hgap hkind hrule hrow (by rw [← hsplit]; exact hline)
  obtain ⟨parsed, hparsed, hkeyword, hoperator, hvalues, hcomment, hdiagnostics, -⟩ :=
    c.classify_of_numbers hgap hkind hrule hrow.plain rfl
  rw [← hsplit] at hedited
  rw [← List.append_assoc, ← NumberRow.rewritten, hedited.classify_eq] at hparsed hdiagnostics
  refine ⟨_, parsed.map (Range.on location.line), c.parse_of_unbroken location hline,
    hedited.editLine_eq location.line, ?_, hkeyword, ?_, ?_, ?_, ?_⟩
  · exact congrArg (LineKind.map (Range.on location.line)) hparsed
  · exact congrArg (Option.map _) hoperator
  · change parsed.values.map _ = _
    rw [hvalues, NumberRow.checked, apply_ite (List.map _), List.map_map]
    rfl
  · exact congrArg (Option.map _) hcomment
  · exact congrArg (List.map _) hdiagnostics

end Classifier

/-- A row with a colour in hexadecimal and an alpha channel that is out of bounds. -/
theorem NumberRow.exists_begins_alpha :
    ∃ row : NumberRow, row.Begins .color 3 4 " = #ff000a 256 # red".toList := by
  refine ⟨⟨some ⟨" ".toList, "=".toList, .equal⟩,
    some ⟨" ".toList, "#ff000a".toList, "#ff000a".toList⟩, [⟨" ".toList, "256".toList, 256⟩],
    " # red".toList⟩, ?_, ?_, ?_, fun _ => rfl, ?_, by decide, by decide, rfl, rfl⟩
  · rintro p ⟨⟩
    exact ⟨rfl, by decide, rfl⟩
  · rintro op ⟨⟩
    rfl
  · rintro p ⟨⟩
    exact ⟨rfl, by decide, "ff000a".toList, rfl, List.all_eq_true.mp rfl, Or.inl rfl, rfl⟩
  · exact List.forall_mem_singleton.mpr ⟨rfl, by decide, 256,
      ⟨"256".toList, by decide, List.all_eq_true.mp rfl, Or.inl ⟨rfl, rfl⟩⟩, rfl⟩

namespace Classifier

set_option maxRecDepth 4000 in
/-- Behind a colour in hexadecimal the alpha channel is out of bounds. It is reported at its place
in the rewritten line. -/
theorem parse_numberList_alpha :
    (parse ⟨{}, true⟩ {} "SetTextColor = #ff000a 256 # red".toList).toOption.map
        (fun result => result.diagnostics.map Diagnostic.range) = some [⟨0, 24, 27⟩] ∧
      ∃ row : NumberRow, row.Divides .color 3 4 " = #ff000a 256 # red".toList ∧
        (row.problems (List.replicate 4 channelBounds) .setTextColor
          "SetTextColor".toList).map (fun d => Range.on 0 d.range) = [⟨0, 24, 27⟩] := by
  have hranges : (parse ⟨{}, true⟩ {} "SetTextColor = #ff000a 256 # red".toList).toOption.map
      (fun result => result.diagnostics.map Diagnostic.range) = some [⟨0, 24, 27⟩] := by decide
  have hline : Unbroken "SetTextColor = #ff000a 256 # red".toList := unbroken_iff.mpr (by decide)
  have hchunk : Text.chunk "SetTextColor = #ff000a 256 # red".toList =
      Keyword.setTextColor.name.toList := by decide
  have hkind : Keyword.setTextColor.kind = .rule .action .color := rfl
  obtain ⟨⟨row, hrow⟩, h⟩ :=
    parse_numberList ⟨{}, true⟩ {} hline hkind .color hchunk
      NumberRow.exists_begins_alpha
  obtain ⟨-, result, -, hparse, -, -, -, -, -, -, hdiagnostics⟩ := h row hrow
  refine ⟨hranges, row, hrow, ?_⟩
  rw [hparse] at hranges
  have hresult : result.diagnostics.map Diagnostic.range = [⟨0, 24, 27⟩] :=
    Option.some.inj hranges
  rwa [hdiagnostics, List.map_map] at hresult

end Classifier

end ItemFilter
