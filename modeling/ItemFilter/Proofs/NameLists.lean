import ItemFilter.Proofs.KeywordLine
import ItemFilter.Proofs.RuleReading

/-!
# Lists of names

A list of names is read to the first place where no name starts, and every name on the way is either
accepted or reported. What is left is a comment, which is an error, or text that can be no name.
Such text is only reported if there is nothing else to report. The row of names is described on the
characters of the line, so that nothing in the statement refers to the cursor.

## Main definitions

* `NameRow`: the operator, the names and the tail of a list of names
* `NameRow.Divides`: a text taken apart into the three
* `NameRow.problems`: what is reported about a list of names

## Main results

* `NameRow.exists_divides`: a text behind a keyword can be taken apart
* `Classifier.parse_nameList`: what is found in the line of a list of names
-/

namespace ItemFilter

open Text Rule Outcome
open Cursor hiding read

/-- No operator but `=` stands at the start of the text. -/
def Text.OnlyEquality (text : Text) : Prop :=
  ∀ p after, Segment.IsOf Spelling.operator p → text = p.text ++ after → atBoundary after = true →
    p.value = .equal

/-- Which operator stands at the start of a text is found by reading it. -/
theorem Text.onlyEquality_iff {text : Text} (hb : atBoundary text = true) :
    text.OnlyEquality ↔ IsEquality ((atStart text).operator.1.map Located.value) := by
  have hstart : atBoundary (atStart text).rest = true := hb
  constructor
  · intro h value hvalue
    obtain ⟨op, after, hop, hrest, hafter, hoperator⟩ := exists_segments_of_operator hstart
    rw [hoperator, Segment.map_value_token] at hvalue
    obtain ⟨p, rfl, rfl⟩ := Option.map_eq_some_iff.mp hvalue
    exact h p after (hop p rfl) (by simpa using hrest) hafter
  · intro h p after hp htext hafter
    refine h p.value ?_
    rw [Cursor.operator, hp.read matchOperator_reads (atStart text) htext hafter]
    rfl

/-! ## Rows of names -/

/-- A list of names as it stands behind its keyword. -/
structure NameRow where
  /-- The operator, if there is one. -/
  operator : Option (Segment Operator)
  /-- The names, one after another. -/
  names : List (Segment Text)
  /-- What follows the names. -/
  tail : Text

/-- There are no names where there should be some. -/
def Rule.missingNames (keyword : Keyword) (cursor : Cursor) : Diagnostic Span :=
  { badFormat keyword "<Text>..." .conditions cursor with
    description := some <|
      s!"The '{keyword.name}' keyword should be followed by a list of words or strings." ++
      "\n\nAny value consisting of multiple words should be surrounded by double " ++
      "quotation marks." }

namespace NameRow

/-- The characters in front of the tail. -/
def text (row : NameRow) : Text :=
  Segment.texts row.operator.toList ++ Segment.texts row.names

/-- The names with their places behind the text `before`. -/
def words (before : Text) (row : NameRow) : List (Token Text) :=
  Segment.tokens (before ++ Segment.texts row.operator.toList) row.names

/-- The text is taken apart into the row: an operator, if one starts there, as many names as there
are, and what follows. -/
structure Divides (text : Text) (row : NameRow) : Prop where
  /-- The operator is a segment of the line. -/
  operator : ∀ p ∈ row.operator, p.IsOf Spelling.operator
  /-- No other operator is allowed. -/
  equality : IsEquality (row.operator.map Segment.value)
  /-- An operator that is there is not passed over. -/
  absent : row.operator = none → ¬ Spelling.operator.Starts text
  /-- The names are segments of the line. -/
  names : ∀ p ∈ row.names, p.IsOf Spelling.argument
  /-- The names end at a boundary. -/
  boundary : atBoundary row.tail = true
  /-- No further name follows. -/
  stops : ¬ Spelling.argument.Starts row.tail
  /-- The row makes up the text. -/
  text_eq : text = row.text ++ row.tail

/-- A text without another operator can be taken apart. -/
theorem exists_divides {text : Text} (hb : atBoundary text = true) (h : text.OnlyEquality) :
    ∃ row : NameRow, row.Divides text := by
  have hstart : atBoundary (atStart text).rest = true := hb
  -- The row is what a cursor at the start of the text passes.
  obtain ⟨op, after, hop, hrest, hafter, hoperator⟩ := exists_segments_of_operator hstart
  obtain ⟨ps, tail, hps, htail, hrest', hrow⟩ :=
    exists_segments_of_arguments ((atStart text).pass (Segment.texts op.toList) after) hafter
  refine ⟨⟨op, ps, tail⟩, hop, ?_, ?_, hps, htail, ?_, ?_⟩
  · have heq := (onlyEquality_iff hb).mp h
    rwa [hoperator, Segment.map_value_token] at heq
  · rintro (rfl : op = none)
    refine (read_eq_none_iff matchOperator_reads (atStart text) hb).mp ?_
    have hsame : after = text := by simpa using hrest.symm
    rw [← Cursor.operator, hoperator, hsame]
    rfl
  · exact (arguments_eq_nil_iff (Cursor.pass _ _ tail) htail).mp
      (arguments_behind hps htail hrest' hrow)
  · rw [show text = _ from hrest, show after = _ from hrest', NameRow.text, List.append_assoc]

/-- The operator and the names are read from a line that starts with the row. -/
theorem Divides.reads {row : NameRow} {cursor : Cursor} (h : row.Divides cursor.rest) :
    cursor.operator = (row.operator.map (Segment.token cursor.consumed),
      cursor.pass (Segment.texts row.operator.toList) (Segment.texts row.names ++ row.tail)) ∧
    (cursor.pass (Segment.texts row.operator.toList)
      (Segment.texts row.names ++ row.tail)).arguments =
        (row.words cursor.consumed, cursor.pass row.text row.tail) := by
  have hb := Segment.atBoundary_texts h.names h.boundary
  have hrest := h.text_eq
  rw [text, List.append_assoc] at hrest
  constructor
  · obtain ⟨operator, names, tail⟩ := row
    cases operator with
    | none =>
      have hstart : Segment.texts names ++ tail = cursor.rest := by simpa using hrest.symm
      rw [Cursor.operator,
        (read_eq_none_iff matchOperator_reads cursor (hstart ▸ hb)).mpr (h.absent rfl)]
      simp [hstart]
    | some p =>
      have hread := (h.operator p rfl).read matchOperator_reads cursor (by simpa using hrest) hb
      simpa [Cursor.operator] using hread
  -- Behind the names no further one is read.
  · rw [arguments_append h.names h.boundary _ rfl, pass_pass,
      (arguments_eq_nil_iff (cursor.pass _ row.tail) h.boundary).mpr h.stops,
      List.append_nil]
    rfl

end NameRow

/-! ## What is found -/

namespace NameRow

variable (names : NameSet) (keyword : Keyword) (before : Text) (row : NameRow)

/-- The line that starts with `before` and goes on with the row. -/
def line : Text :=
  before ++ row.text ++ row.tail

/-- What is accepted and reported of the names: every name that is not known, and that there are
none. -/
def listed : Outcome :=
  { operator := row.operator.map (Segment.token before)
    values := ((row.words before).filter fun word => isKnownName names word.value).map
      (Located.map .text)
    diagnostics :=
      ((row.words before).filter fun word => !isKnownName names word.value).map
          (fun word => wrongWord keyword word.range) ++
        if row.names.isEmpty then [missingNames keyword (atStart (row.line before))] else [] }

/-- The errors of a list of names up to its tail: every name that is not known, that there are none,
and a comment. -/
def errors : List (Diagnostic Span) :=
  (row.listed names keyword before).diagnostics ++
    if (trimStart row.tail).head? = some '#' then
      [badComment keyword (spanOf (before ++ row.text ++ leading row.tail) (trimStart row.tail))]
    else []

/-- The problems of a list of names: its errors, or else text that is left over. -/
def problems : List (Diagnostic Span) :=
  if (row.errors names keyword before).isEmpty && !allBlank row.tail then
    [leftoverText (row.line before) (spanOf (before ++ row.text) (trimEnd row.tail))]
  else row.errors names keyword before

end NameRow

namespace Rule

variable {names : NameSet} {row : NameRow} (keyword : Keyword) (cursor : Cursor)

/-- The wording of a bad format refers to the line only. -/
theorem badFormat_congr (usage : String) (page : Page) {other : Cursor}
    (hcontent : cursor.content = other.content) (htext : cursor.text = other.text) :
    badFormat keyword usage page cursor = badFormat keyword usage page other := by
  rw [badFormat, badFormat, length, length, hcontent, htext]

/-- A list of names in terms of its row. -/
theorem catalogList_of_divides (h : row.Divides cursor.rest)
    (hcontent : cursor.content = extent (row.line cursor.consumed)) :
    catalogList keyword names cursor =
      rejectComment keyword (row.listed names keyword cursor.consumed)
        (cursor.pass row.text row.tail) := by
  obtain ⟨hoperator, harguments⟩ := h.reads
  have hempty : (row.words cursor.consumed).isEmpty = row.names.isEmpty := by
    rw [Bool.eq_iff_iff, List.isEmpty_iff_length_eq_zero, List.isEmpty_iff_length_eq_zero,
      NameRow.words, Segment.length_tokens]
  have hmissing : badFormat keyword "<Text>..." .conditions (cursor.pass row.text row.tail) =
      badFormat keyword "<Text>..." .conditions (atStart (row.line cursor.consumed)) :=
    badFormat_congr keyword _ _ _ hcontent (by simp [Cursor.text, NameRow.line, atStart])
  rw [catalogList, withEquality_of_isEquality hoperator
    (by rw [Segment.map_value_token]; exact h.equality), harguments]
  dsimp only
  rw [List.partition_eq_filter_filter, hempty, hmissing, NameRow.listed]
  split
  · rfl
  · simp
    rfl

/-- What is reported of the names are errors without fixes. -/
theorem isPlain_listed (names : NameSet) (before : Text) (row : NameRow) :
    (row.listed names keyword before).IsPlain false := by
  refine ⟨fun d hd => ?_, fun _ => rfl⟩
  rcases List.mem_append.mp hd with hd | hd
  · obtain ⟨word, -, rfl⟩ := List.mem_map.mp hd
    exact ⟨rfl, rfl⟩
  · split at hd
    · obtain rfl := List.mem_singleton.mp hd
      exact ⟨rfl, rfl⟩
    · cases hd

/-- What a list of names comes to. -/
theorem read_of_divides (catalog : Catalog) (kind : NameKind) (h : row.Divides cursor.rest)
    (hcontent : cursor.content = extent (row.line cursor.consumed)) :
    (read catalog keyword (.catalogList kind) cursor).1 =
      { row.listed (catalog.names kind) keyword cursor.consumed with
        diagnostics := row.problems (catalog.names kind) keyword cursor.consumed } := by
  have harguments : arguments catalog keyword (.catalogList kind) cursor =
      ArgumentRule.finish keyword (.catalogList kind)
        (row.listed (catalog.names kind) keyword cursor.consumed)
        (cursor.pass row.text row.tail) := catalogList_of_divides keyword cursor h hcontent
  by_cases hhead : (trimStart row.tail).head? = some '#'
  -- A comment is an error, so nothing else is reported behind it.
  · obtain ⟨text, htail, htrim, hne⟩ := leading_sign h.boundary hhead
    have hgap := allBlank_leading row.tail
    rw [read_of_comment keyword cursor harguments htail hgap hne, NameRow.problems, NameRow.errors,
      if_pos hhead, htrim]
    simp [Outcome.report, ArgumentRule.allowsComment]
  -- Without a comment, what is left over is reported if nothing else is.
  · have hnot : (cursor.pass row.text row.tail).isCommented = false :=
      isCommented_eq_false_iff.mpr hhead
    have herrors : row.errors (catalog.names kind) keyword cursor.consumed =
        (row.listed (catalog.names kind) keyword cursor.consumed).diagnostics := by
      rw [NameRow.errors, if_neg hhead, List.append_nil]
    have hleft : (cursor.pass row.text row.tail).isEmpty = allBlank row.tail := rfl
    rw [read_of_not_isCommented keyword cursor harguments hnot, (isPlain_listed ..).invalid_eq,
      NameRow.problems, herrors, hleft]
    cases hempty :
        (row.listed (catalog.names kind) keyword cursor.consumed).diagnostics.isEmpty with
    | false => rfl
    | true =>
      cases hblank : allBlank row.tail with
      | true => rfl
      | false =>
        have hstop : cursor.content.stop =
            byteLength (cursor.consumed ++ row.text ++ trimEnd row.tail) := by
          rw [hcontent, NameRow.line, extent_stop_append _ hblank]
        simp [List.isEmpty_iff.mp hempty, Outcome.report, hstop, Cursor.text, NameRow.line,
          offset, spanOf]

end Rule

/-! ## Lines -/

namespace Classifier

/-- The line of a list of names loses no name and repeats none. With an operator that is `=`, or
none, the rest of the line is a row of names, and of these the known ones are accepted in their
order, while each of the others is reported where it stands. That there are no names, and a comment
behind them, is reported as well; and without any of these errors, so is text that is left over,
with a fix. -/
theorem parse_nameList (c : Classifier) (location : Location) {line : Text}
    (hline : ∀ x ∈ line, breaksLine x = false) {keyword : Keyword} {category : Category}
    {kind : NameKind} (hkind : keyword.kind = .rule category (.catalogList kind))
    (hchunk : Text.chunk line = keyword.name.toList)
    (hoperator : (Text.afterChunk line).OnlyEquality) :
    (∃ row : NameRow, row.Divides (Text.afterChunk line)) ∧
    ∀ row : NameRow, row.Divides (Text.afterChunk line) →
      ∃ result parsed, c.parse location line = .ok result ∧ result.kind = .rule parsed ∧
        parsed.keyword.value = keyword ∧
        parsed.operator = (row.operator.map
          (Segment.token (leading line ++ keyword.name.toList))).map
            (Located.mapRange (Range.on location.line)) ∧
        parsed.values = ((row.words (leading line ++ keyword.name.toList)).filter fun word =>
          isKnownName (c.catalog.names kind) word.value).map
            (fun word => (word.map .text).mapRange (Range.on location.line)) ∧
        parsed.comment = none ∧ result.edits = [] ∧
        result.diagnostics =
          (row.problems (c.catalog.names kind) keyword (leading line ++ keyword.name.toList)).map
            (Diagnostic.map (Range.on location.line) location.file) := by
  have hsplit : line = leading line ++ keyword.name.toList ++ afterChunk line :=
    eq_of_chunk hchunk
  have hb := atBoundary_afterChunk line
  refine ⟨NameRow.exists_divides hb hoperator, fun row hrow => ?_⟩
  have hcontent : extent line = extent (row.line (leading line ++ keyword.name.toList)) := by
    rw [NameRow.line, List.append_assoc _ row.text, ← hrow.text_eq, ← hsplit]
  have hread := Rule.read_of_divides keyword
    ⟨leading line ++ keyword.name.toList, afterChunk line, extent line⟩ c.catalog kind hrow hcontent
  rw [c.parse_of_unbroken location hline, c.classify_rule hkind hsplit (allBlank_leading line) hb,
    ruleLine_eq, hread]
  refine ⟨_, _, rfl, rfl, rfl, rfl, ?_, rfl, rfl, rfl⟩
  exact List.map_map

set_option maxRecDepth 4000 in
/-- Of three names one is known; the text behind them is not reported, since the others are. -/
theorem parse_nameList_unknown :
    ((parse ⟨.ofNames [] ["Gold Ring".toList], true⟩ {} "BaseType = Foo \"\" Gold <".toList).map
        fun result => result.diagnostics.length).toOption = some 2 ∧
      ∃ row : NameRow, row.Divides " = Foo \"\" Gold <".toList ∧
        (row.problems (.ofList ["Gold Ring".toList]) .baseType "BaseType".toList).length = 2 := by
  have hlength : ((parse ⟨.ofNames [] ["Gold Ring".toList], true⟩ {}
      "BaseType = Foo \"\" Gold <".toList).map
        fun result => result.diagnostics.length).toOption = some 2 := by decide +kernel
  have hline : Unbroken "BaseType = Foo \"\" Gold <".toList := unbroken_iff.mpr (by decide)
  have hkind : Keyword.baseType.kind = .rule .condition (.catalogList .bases) := rfl
  have hchunk : Text.chunk "BaseType = Foo \"\" Gold <".toList =
      Keyword.baseType.name.toList := by decide
  have hoperator : Text.OnlyEquality " = Foo \"\" Gold <".toList :=
    (onlyEquality_iff rfl).mpr (by unfold IsEquality; decide)
  obtain ⟨⟨row, hrow⟩, h⟩ :=
    parse_nameList ⟨.ofNames [] ["Gold Ring".toList], true⟩ {} hline hkind hchunk hoperator
  obtain ⟨result, -, hparse, -, -, -, -, -, -, hdiagnostics⟩ := h row hrow
  refine ⟨hlength, row, hrow, ?_⟩
  rw [hparse] at hlength
  have hcount : result.diagnostics.length = 2 := Option.some.inj hlength
  rwa [hdiagnostics, List.length_map] at hcount

end Classifier

end ItemFilter
