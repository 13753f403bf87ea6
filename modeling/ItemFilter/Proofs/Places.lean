import ItemFilter.Proofs.Reachable
import ItemFilter.Proofs.Rewriting

/-!
# The places of a classified line

Everything that is found in a line is found at some of its characters: the keyword, the operator,
the values, a comment, every problem and every fix. A problem ends where a token ends, where the
content of the line ends, or where the line ends, so the cursor has to know all of these, and each
of the rules has to keep it from losing track. If a colour was expanded, the line that counts is the
one with the expansion; the edits themselves are places of the line as it was.

## Main definitions

* `RuleLine.parts`, `LineKind.places`, `LineResult.places`: the places in a classified line
* `Range.Covers`: a range of a line, and the text it covers
* `Outcome.Placed`: steps of a cursor and what they come to, with every place in the line

## Main results

* `Rule.placed_read`: the places in what a rule comes to
* `Classifier.isWithin_classify`: the places in a line that is not edited
* `Classifier.parse_places`: the places in any line
-/

namespace ItemFilter

open Text
open Cursor hiding read

variable {ρ σ : Type}

/-! ## Places -/

/-- The places of the parts of a block line, in the order in which they are read. -/
def BlockLine.parts (line : BlockLine ρ) : List ρ :=
  line.keyword.range :: line.comment.toList.map Located.range

/-- The places of the parts of a rule line, in the order in which they are read. -/
def RuleLine.parts (line : RuleLine ρ) : List ρ :=
  line.keyword.range :: (line.operator.toList.map Located.range ++
    (line.values.map Located.range ++ line.comment.toList.map Located.range))

/-- The places of what a line is, and of its parts. -/
def LineKind.places : LineKind ρ → List ρ
  | comment body => [body.range]
  | empty => []
  | block line => line.range :: line.parts
  | rule line => line.range :: line.parts
  | unknown text => [text.range]

/-- The places of what a line is, of its parts and of its problems. -/
def LineResult.places (result : LineResult ρ) : List ρ :=
  result.kind.places ++ result.diagnostics.map Diagnostic.range

@[simp] theorem Located.map_range_toList {α : Type} (f : ρ → σ) (found : Option (Located ρ α)) :
    (found.map (mapRange f)).toList.map range = (found.toList.map range).map f := by
  cases found <;> rfl

theorem RuleLine.parts_map (f : ρ → σ) (line : RuleLine ρ) :
    (line.map f).parts = line.parts.map f := by
  simp [parts, RuleLine.map, Located.mapRange, Function.comp_def]

theorem LineKind.places_map (f : ρ → σ) (kind : LineKind ρ) :
    (kind.map f).places = kind.places.map f := by
  cases kind with
  | comment body => rfl
  | empty => rfl
  | block line => simp [LineKind.map, places, BlockLine.map, BlockLine.parts, Located.mapRange]
  | rule line => exact congrArg (f line.range :: ·) (RuleLine.parts_map f line)
  | unknown text => rfl

theorem LineResult.places_map (f : ρ → σ) (file : Option String) (result : LineResult ρ) :
    (result.map f file).places = result.places.map f := by
  simp [places, LineResult.map, LineKind.places_map, Diagnostic.map, Function.comp_def]

/-- A range of the line numbered `n`, and the text it covers: it has a first character and its ends
are ends of characters. -/
structure Range.Covers (range : Range) (n : Nat) (line inside : Text) : Prop where
  /-- The range is on the line. -/
  line_eq : range.line = n
  /-- It covers something. -/
  start_lt : range.start < range.stop
  /-- It ends in the line. -/
  stop_le : range.stop ≤ byteLength line
  /-- The text is what stands there. -/
  slice?_eq : slice? range.start range.stop line = some inside

theorem Range.covers_on (n : Nat) (before : Text) {inside : Text} (after : Text)
    (h : inside ≠ []) :
    (Range.on n (spanOf before inside)).Covers n (before ++ inside ++ after) inside := by
  obtain ⟨hlt, hle⟩ := (spans_append before after h).bounds
  exact ⟨rfl, hlt, hle, slice?_append before inside after⟩

/-- The text that a range covers stands between its columns. -/
theorem Range.Covers.exists_append {range : Range} {n : Nat} {line inside : Text}
    (h : range.Covers n line inside) :
    ∃ before after, inside ≠ [] ∧ line = before ++ (inside ++ after) ∧
      range = Range.on n (spanOf before inside) := by
  obtain ⟨m, start, stop⟩ := range
  obtain ⟨before, after, hline, rfl, rfl⟩ := slice?_eq_some_iff.mp h.slice?_eq
  obtain rfl : m = n := h.line_eq
  refine ⟨before, after, ?_, hline, rfl⟩
  rintro rfl
  have hlt := h.start_lt
  simp at hlt

/-- A range that ends in the front of a line covers some of the front. -/
theorem Range.Covers.exists_append_of_stop_le {range : Range} {n : Nat} {before after inside : Text}
    (h : range.Covers n (before ++ after) inside) (hle : range.stop ≤ byteLength before) :
    ∃ first middle, inside ≠ [] ∧ before = first ++ inside ++ middle ∧
      range = Range.on n (spanOf first inside) := by
  obtain ⟨first, rest, hne, hsplit, rfl⟩ := h.exists_append
  rw [← List.append_assoc] at hsplit
  obtain ⟨middle, hbefore, -⟩ := exists_append_of_le hsplit.symm hle
  exact ⟨first, middle, hne, hbefore, rfl⟩

/-- A range that is not empty covers the text that stands there. -/
theorem Range.covers_of_slice? {range : Range} {n : Nat} {line inside : Text}
    (hline : range.line = n) (hlt : range.start < range.stop)
    (hslice : slice? range.start range.stop line = some inside) : range.Covers n line inside := by
  obtain ⟨before, after, hsplit, -, hstop⟩ := slice?_eq_some_iff.mp hslice
  refine ⟨hline, hlt, ?_, hslice⟩
  rw [hsplit, ← hstop, ← List.append_assoc, byteLength_append (before ++ inside)]
  exact Nat.le_add_right ..

/-- A span of a line covers some text of it. -/
theorem Range.exists_covers (n : Nat) {line : Text} {span : Span} (h : line.Spans span) :
    ∃ inside, (Range.on n span).Covers n line inside := by
  obtain ⟨before, inside, after, hne, rfl, rfl⟩ := h
  exact ⟨inside, covers_on n before after hne⟩

/-- A problem at some characters of the line. If it has a fix, the fix comments them out. -/
def Diagnostic.IsWithin (line : Text) (diagnostic : Diagnostic Span) : Prop :=
  line.Spans diagnostic.range ∧
    ∀ fix ∈ diagnostic.fix, fix = Fix.commentOut line diagnostic.range

theorem Diagnostic.isWithin_of_fix_eq_none {line : Text} {diagnostic : Diagnostic Span}
    (hspan : line.Spans diagnostic.range) (hfix : diagnostic.fix = none) :
    diagnostic.IsWithin line :=
  ⟨hspan, by simp [hfix]⟩

/-- The fix of a problem stands where the problem does, and knows the text there. -/
theorem Diagnostic.IsWithin.covers_fix {line : Text} {diagnostic : Diagnostic Span}
    (h : diagnostic.IsWithin line) {fix : Fix Span} (hfix : fix ∈ diagnostic.fix) (n : Nat) :
    fix.edit.range = diagnostic.range ∧
      (Range.on n fix.edit.range).Covers n line fix.edit.oldText := by
  obtain rfl := h.2 fix hfix
  obtain ⟨inside, hcovers⟩ := Range.exists_covers n h.1
  have hslice : slice? diagnostic.range.start diagnostic.range.stop line = some inside :=
    hcovers.slice?_eq
  refine ⟨rfl, ?_⟩
  -- The text is found, so nothing stands in for it.
  have hold : (Fix.commentOut line diagnostic.range).edit.oldText = inside := by
    simp [Fix.commentOut, hslice]
  rw [hold]
  exact hcovers

/-! ## The end of the line -/

namespace Cursor

/-- A cursor on a line that is not blank, and that knows its extent. -/
structure IsMeasured (cursor : Cursor) : Prop where
  /-- The cursor knows the extent of the line. -/
  content_eq : cursor.content = extent cursor.text
  /-- The line is not blank. -/
  visible : allBlank cursor.text = false

variable {cursor : Cursor}

/-- The extent of a line that is not blank covers some of it. -/
theorem IsMeasured.spans_content (h : cursor.IsMeasured) : cursor.text.Spans cursor.content := by
  obtain ⟨gap, hgap, hblank⟩ := eq_trimEnd_append (trimStart cursor.text)
  have hflush := isFlush_trimStart h.visible
  have hne : trim cursor.text ≠ [] := by
    intro hnil
    -- all of the line would be white space
    have hvisible := hflush.allBlank_eq_false
    rw [hgap, show trimEnd (trimStart cursor.text) = [] from hnil, List.nil_append,
      hblank] at hvisible
    cases hvisible
  refine ⟨leading cursor.text, trim cursor.text, gap, hne, ?_, ?_⟩
  · rw [List.append_assoc, trim, ← hgap, leading_append_trimStart]
  · rw [h.content_eq, extent, if_neg (by simp [h.visible]), spanOf, byteLength_append]

/-- From the start of its content up to its end there is some of a line that is not blank. -/
theorem IsMeasured.spans_length (h : cursor.IsMeasured) :
    cursor.text.Spans ⟨cursor.content.start, cursor.length⟩ := by
  refine ⟨leading cursor.text, trimStart cursor.text, [],
    (isFlush_trimStart h.visible).ne_nil, ?_, ?_⟩
  · rw [List.append_nil, leading_append_trimStart]
  · rw [spanOf, leading_append_trimStart, h.content_eq, extent_of_not h.visible, length]

/-- What is left up to the end of the content is some of the line. -/
theorem IsMeasured.spans_rest (h : cursor.IsMeasured) (hrest : cursor.isEmpty = false) :
    cursor.text.Spans ⟨cursor.offset, cursor.content.stop⟩ := by
  obtain ⟨gap, hgap, hblank⟩ := eq_trimEnd_append cursor.rest
  have hne : trimEnd cursor.rest ≠ [] := by
    intro hnil
    rw [hnil, List.nil_append] at hgap
    rw [isEmpty, hgap, hblank] at hrest
    cases hrest
  refine ⟨cursor.consumed, trimEnd cursor.rest, gap, hne, ?_, ?_⟩
  · rw [List.append_assoc, ← hgap, Cursor.text]
  · rw [h.content_eq, Cursor.text, extent_stop_append cursor.consumed hrest, spanOf, offset]

theorem Finds.isMeasured {next : Cursor} {spans : List Span} (h : Finds cursor next spans)
    (hcursor : cursor.IsMeasured) : next.IsMeasured :=
  ⟨h.reaches.content_eq hcursor.content_eq, h.text_eq ▸ hcursor.visible⟩

end Cursor

/-! ## Outcomes -/

namespace Outcome

/-- Every place in an outcome is some of the line. -/
structure Within (line : Text) (outcome : Outcome) : Prop where
  /-- The operator is in the line. -/
  operator : ∀ op ∈ outcome.operator, line.Spans op.range
  /-- The values are in the line. -/
  values : ∀ v ∈ outcome.values, line.Spans v.range
  /-- The comment is in the line. -/
  comment : ∀ t ∈ outcome.comment, line.Spans t.range
  /-- The problems are in the line, and so is what the fixes comment out. -/
  diagnostics : ∀ d ∈ outcome.diagnostics, d.IsWithin line

/-- Steps of a cursor, and what they come to. Unless the line was edited on the way, it is the same
line, and every place is in it if the cursor knew where the line ends. -/
structure Placed (cursor : Cursor) (result : Outcome × Cursor) : Prop where
  /-- There are such steps. -/
  reaches : Reaches cursor result.2
  /-- The line is the same. -/
  text_eq : result.1.edits = [] → result.2.text = cursor.text
  /-- Every place is in the line. -/
  within : result.1.edits = [] → cursor.IsMeasured → result.1.Within cursor.text

variable {cursor next last : Cursor} {outcome : Outcome} {result : Outcome × Cursor}

theorem within_operator {line : Text} {operator : Option (Token Operator)}
    (h : ∀ op ∈ operator, line.Spans op.range) (edits : List (TextEdit Span)) :
    Within line { operator, edits } where
  operator := h
  values := by
    intro v hv
    cases hv
  comment := by
    intro t ht
    cases ht
  diagnostics := by
    intro d hd
    cases hd

/-- Something was read, and nothing of it is kept. -/
theorem placed_of_finds {spans : List Span} (h : Finds cursor next spans) :
    Placed cursor ({}, next) := by
  refine ⟨h.reaches, fun _ => h.text_eq, ?_⟩
  intro _ _
  apply within_operator
  intro op hop
  cases hop

/-- An operator was read, or there is none. -/
theorem placed_operator {operator : Option (Token Operator)}
    (h : cursor.operator = (operator, next)) : Placed cursor ({ operator }, next) := by
  have hfinds : Finds cursor cursor.operator.2 (cursor.operator.1.toList.map Located.range) :=
    finds_read .operator cursor
  rw [h] at hfinds
  refine ⟨hfinds.reaches, fun _ => hfinds.text_eq, ?_⟩
  intro _ _
  apply within_operator
  intro op hop
  exact hfinds.spans _ (List.mem_map_of_mem (Option.mem_toList.mpr hop))

namespace Placed

/-- Something else is read without changing the outcome. -/
theorem move (h : Placed cursor (outcome, next)) {spans : List Span}
    (hfinds : Finds next last spans) : Placed cursor (outcome, last) :=
  ⟨h.reaches.trans hfinds.reaches, fun hedits => hfinds.text_eq.trans (h.text_eq hedits),
    h.within⟩

/-- What is read later is in the same line. -/
theorem spans (h : Placed cursor (outcome, next)) {spans : List Span}
    (hfinds : Finds next last spans) (hedits : outcome.edits = []) :
    ∀ span ∈ spans, cursor.text.Spans span := by
  rw [← h.text_eq hedits]
  exact hfinds.spans

theorem isMeasured (h : Placed cursor result) (hcursor : cursor.IsMeasured)
    (hedits : result.1.edits = []) : result.2.IsMeasured :=
  ⟨h.reaches.content_eq hcursor.content_eq, (h.text_eq hedits) ▸ hcursor.visible⟩

theorem report (h : Placed cursor result) {diagnostic : Diagnostic Span}
    (hdiagnostic : result.1.edits = [] → cursor.IsMeasured → diagnostic.IsWithin cursor.text) :
    Placed cursor (result.1.report diagnostic, result.2) where
  reaches := h.reaches
  text_eq := h.text_eq
  within := by
    intro hedits hcursor
    have hwithin := h.within hedits hcursor
    refine ⟨hwithin.operator, hwithin.values, hwithin.comment, fun d hd => ?_⟩
    rcases List.mem_append.mp hd with hd | hd
    · exact hwithin.diagnostics d hd
    · obtain rfl := List.mem_singleton.mp hd
      exact hdiagnostic hedits hcursor

/-- The problem that the arguments have the wrong form reaches up to the end of the line. -/
theorem spans_badFormat (h : Placed cursor (outcome, next)) (hcursor : cursor.IsMeasured)
    (keyword : Keyword) (usage : String) (page : Page) (hedits : outcome.edits = []) :
    cursor.text.Spans (badFormat keyword usage page next).range := by
  have hspans := (h.isMeasured hcursor hedits).spans_length
  rwa [h.text_eq hedits] at hspans

theorem report_badFormat (h : Placed cursor (outcome, next)) (keyword : Keyword) (usage : String)
    (page : Page) : Placed cursor (outcome.report (badFormat keyword usage page next), next) :=
  h.report fun hedits hcursor => Diagnostic.isWithin_of_fix_eq_none
    (h.spans_badFormat hcursor keyword usage page hedits) rfl

theorem accept (h : Placed cursor (outcome, next)) {value : Token Value}
    (hvalue : outcome.edits = [] → cursor.text.Spans value.range) :
    Placed cursor (outcome.accept value, next) where
  reaches := h.reaches
  text_eq := h.text_eq
  within := by
    intro hedits hcursor
    have hwithin := h.within hedits hcursor
    refine ⟨hwithin.operator, fun v hv => ?_, hwithin.comment, hwithin.diagnostics⟩
    rcases List.mem_append.mp hv with hv | hv
    · exact hwithin.values v hv
    · obtain rfl := List.mem_singleton.mp hv
      exact hvalue hedits

/-- A value that was read is accepted or reported where it stands. -/
theorem settle (h : Placed cursor (outcome, next)) {spans : List Span}
    (hfinds : Finds next last spans) {value : Token Value} {problem : Diagnostic Span}
    (hvalue : value.range ∈ spans) (hproblem : problem.range = value.range)
    (hfix : problem.fix = none) (good : Bool) :
    Placed cursor (if good then outcome.accept value else outcome.report problem, last) := by
  have hspans : outcome.edits = [] → cursor.text.Spans value.range := by
    intro hedits
    exact h.spans hfinds hedits _ hvalue
  cases good with
  | true => exact (h.move hfinds).accept hspans
  | false =>
    apply (h.move hfinds).report
    intro hedits _
    exact Diagnostic.isWithin_of_fix_eq_none (hproblem ▸ hspans hedits) hfix

/-- A comment is kept where it stands. -/
theorem keep (h : Placed cursor (outcome, next)) {comment : Token Text}
    (hcomment : outcome.edits = [] → cursor.text.Spans comment.range) :
    Placed cursor ({ outcome with comment := some comment }, next) where
  reaches := h.reaches
  text_eq := h.text_eq
  within := by
    intro hedits hcursor
    have hwithin := h.within hedits hcursor
    refine ⟨hwithin.operator, hwithin.values, ?_, hwithin.diagnostics⟩
    intro t ht
    obtain rfl := Option.mem_some_iff.mp ht
    exact hcomment hedits

/-- A comment that is reported is reported up to the end of the line. -/
theorem rejectComment (h : Placed cursor (outcome, next)) (keyword : Keyword) :
    Placed cursor (Outcome.rejectComment keyword outcome next) := by
  unfold Outcome.rejectComment Cursor.comment
  rcases read_cases matchComment next with hread | ⟨token, last, hscan, hread⟩
  · rw [hread]
    exact h
  · have hfinds : Finds next (Cursor.read matchComment next).2
        ((Cursor.read matchComment next).1.toList.map Located.range) := finds_read .comment next
    rw [hread] at hfinds ⊢
    refine (h.move hfinds).report fun hedits _ => Diagnostic.isWithin_of_fix_eq_none ?_ rfl
    obtain ⟨before, inside, after, hne, htext, hspan⟩ :=
      h.spans hfinds hedits token.range (List.mem_singleton_self _)
    refine ⟨before, inside ++ after, [], by simp [hne], by simpa using htext, ?_⟩
    rw [badComment, hspan, length, hfinds.text_eq, h.text_eq hedits, htext, spanOf_start, spanOf,
      List.append_assoc]

theorem captureComment (h : Placed cursor (outcome, next)) :
    Placed cursor (Outcome.captureComment outcome next) := by
  unfold Outcome.captureComment Cursor.comment
  rcases read_cases matchComment next with hread | ⟨token, last, hscan, hread⟩
  · rw [hread]
    exact h
  · have hfinds : Finds next (Cursor.read matchComment next).2
        ((Cursor.read matchComment next).1.toList.map Located.range) := finds_read .comment next
    rw [hread] at hfinds ⊢
    apply (h.move hfinds).keep
    intro hedits
    exact h.spans hfinds hedits _ (List.mem_singleton_self _)

end Placed

/-- An operator was read, and is not kept but reported where it stands. -/
theorem placed_badOperator {op : Token Operator} (h : cursor.operator = (some op, next))
    {problem : Diagnostic Span} (hrange : problem.range = op.range) (hfix : problem.fix = none) :
    Placed cursor ({ diagnostics := [problem] }, next) := by
  have hfinds : Finds cursor cursor.operator.2 (cursor.operator.1.toList.map Located.range) :=
    finds_read .operator cursor
  rw [h] at hfinds
  apply (placed_of_finds hfinds).report
  intro _ _
  apply Diagnostic.isWithin_of_fix_eq_none ?_ hfix
  rw [hrange]
  exact hfinds.spans _ (List.mem_singleton_self _)

/-- Behind an operator that has to be `=`, places are where they are behind any operator. -/
theorem placed_withEquality (keyword : Keyword)
    {arguments : Option (Token Operator) → Cursor → Outcome × Cursor}
    (h : ∀ operator next, Placed cursor ({ operator }, next) →
      Placed cursor (arguments operator next)) :
    Placed cursor (withEquality keyword cursor arguments) := by
  unfold withEquality
  rcases hoperator : cursor.operator with ⟨_ | op, next⟩
  · exact h none next (placed_operator hoperator)
  · dsimp only
    by_cases heq : op.value = .equal
    · rw [if_pos heq]
      exact h (some op) next (placed_operator hoperator)
    · rw [if_neg heq]
      exact placed_badOperator hoperator rfl rfl

end Outcome

/-! ## Rule by rule -/

namespace Rule

open Outcome

variable (keyword : Keyword) (cursor : Cursor)

variable {cursor} in
/-- Numbers are accepted or reported where they stand. -/
theorem placed_checkNumbers {next last : Cursor} {outcome : Outcome}
    (h : Placed cursor (outcome, next)) {spans : List Span}
    (hfinds : Finds next last spans) {numbers : List (Token Int × Bounds)}
    (hnumbers : ∀ n ∈ numbers, n.1.range ∈ spans) :
    Placed cursor (checkNumbers keyword outcome numbers, last) := by
  have hmove := h.move hfinds
  refine ⟨hmove.reaches, ?_, ?_⟩
  · rw [edits_checkNumbers]
    exact hmove.text_eq
  · rw [edits_checkNumbers]
    intro hedits hcursor
    have hwithin := h.within hedits hcursor
    have hspans : ∀ n ∈ numbers, cursor.text.Spans n.1.range := by
      intro n hn
      exact h.spans hfinds hedits _ (hnumbers n hn)
    rw [checkNumbers_eq]
    split
    · refine ⟨hwithin.operator, ?_, hwithin.comment, hwithin.diagnostics⟩
      intro v hv
      rcases List.mem_append.mp hv with hv | hv
      · exact hwithin.values v hv
      · obtain ⟨n, hn, rfl⟩ := List.mem_map.mp hv
        exact hspans n hn
    · refine ⟨hwithin.operator, hwithin.values, hwithin.comment, ?_⟩
      intro d hd
      rcases List.mem_append.mp hd with hd | hd
      · exact hwithin.diagnostics d hd
      · obtain ⟨n, hn, rfl⟩ := List.mem_map.mp hd
        exact Diagnostic.isWithin_of_fix_eq_none (hspans n (List.mem_filter.mp hn).1) rfl

variable {cursor} in
/-- A number is accepted or reported where it stands, or the end of the line is reported. -/
theorem placed_bounded {next : Cursor} {outcome : Outcome} (h : Placed cursor (outcome, next))
    (bounds : Bounds) (usage : String) :
    Placed cursor
      (match next.number.1 with
        | none => outcome.report (badFormat keyword usage .overview next.number.2)
        | some n =>
          if bounds.contains n.value then outcome.accept (n.map .number)
          else outcome.report (outOfBounds keyword n.range bounds), next.number.2) := by
  have hfinds : Finds next next.number.2 (next.number.1.toList.map Located.range) :=
    finds_read .number next
  rcases hnumber : next.number with ⟨_ | n, last⟩
  · rw [hnumber] at hfinds
    exact (h.move hfinds).report_badFormat keyword _ _
  · rw [hnumber] at hfinds
    exact h.settle hfinds (List.mem_singleton_self _) rfl rfl _

theorem placed_range (bounds : Bounds) (allowed : Bool) :
    Placed cursor (range keyword bounds allowed cursor) := by
  unfold range
  rcases hoperator : cursor.operator with ⟨_ | op, next⟩
  · exact (placed_bounded keyword (placed_operator hoperator) bounds _).rejectComment
      keyword
  · cases allowed with
    | true =>
      exact (placed_bounded keyword (placed_operator hoperator) bounds _).rejectComment keyword
    | false =>
      -- The number behind a needless operator is checked all the same.
      have hneedless : Placed cursor
          ({ diagnostics := [needlessOperator keyword op.range] }, next) :=
        placed_badOperator hoperator rfl rfl
      exact (placed_bounded keyword hneedless bounds _).rejectComment keyword

theorem placed_operatorNumber (allowed : List Int) :
    Placed cursor (operatorNumber keyword allowed cursor) := by
  rcases hoperator : cursor.operator with ⟨operator, next⟩
  have hlead := placed_operator hoperator
  have hfinds : Finds next next.number.2 (next.number.1.toList.map Located.range) :=
    finds_read .number next
  unfold operatorNumber
  rw [hoperator]
  dsimp only
  rcases hnumber : next.number with ⟨_ | n, last⟩
  · rw [hnumber] at hfinds
    exact (hlead.move hfinds).report_badFormat keyword _ _
  · rw [hnumber] at hfinds
    exact (hlead.settle hfinds (List.mem_singleton_self _) rfl rfl _).rejectComment keyword

theorem placed_alertSound :
    Placed cursor (alertSound keyword cursor) := by
  refine placed_withEquality keyword fun operator next hlead => ?_
  have hfinds := finds_numbers 2 next
  rcases hnumbers : next.numbers 2 with ⟨_ | ⟨n, tokens⟩, last⟩
  · rw [hnumbers] at hfinds
    exact (hlead.move hfinds).report_badFormat keyword _ _
  · rw [hnumbers] at hfinds
    apply Placed.captureComment
    apply placed_checkNumbers keyword hlead hfinds
    intro m hm
    exact List.mem_map_of_mem (List.of_mem_zip hm).1

theorem placed_boolean :
    Placed cursor (boolean keyword cursor) := by
  refine placed_withEquality keyword fun operator next hlead => ?_
  have hfinds : Finds next next.boolean.2 (next.boolean.1.toList.map Located.range) :=
    finds_read .boolean next
  dsimp only
  apply Placed.rejectComment
  rcases hboolean : next.boolean with ⟨_ | truth, last⟩
  · rw [hboolean] at hfinds
    have hmove := hlead.move hfinds
    apply hmove.report
    intro hedits hcursor
    exact Diagnostic.isWithin_of_fix_eq_none
      (hmove.spans_badFormat hcursor keyword "<Boolean>" .conditions hedits) rfl
  · rw [hboolean] at hfinds
    apply (hlead.move hfinds).accept
    intro hedits
    exact hlead.spans hfinds hedits _ (List.mem_singleton_self _)

theorem placed_oneOf (allowed : List String) :
    Placed cursor (oneOf keyword allowed cursor) := by
  rcases hoperator : cursor.operator with ⟨operator, next⟩
  have hlead := placed_operator hoperator
  have hfinds := finds_argument next
  unfold oneOf
  rw [hoperator]
  dsimp only
  rcases hword : argument next with ⟨_ | word, last⟩
  · rw [hword] at hfinds
    exact (hlead.move hfinds).report_badFormat keyword _ _
  · rw [hword] at hfinds
    exact (hlead.settle hfinds (List.mem_singleton_self _) rfl rfl _).rejectComment keyword

theorem placed_socketGroup :
    Placed cursor (socketGroup keyword cursor) := by
  refine placed_withEquality keyword fun operator next hlead => ?_
  have hfinds := finds_argument next
  dsimp only
  rcases hword : argument next with ⟨_ | word, last⟩
  · rw [hword] at hfinds
    exact (hlead.move hfinds).report_badFormat keyword _ _
  · rw [hword] at hfinds
    exact (hlead.settle hfinds (List.mem_singleton_self _) rfl rfl _).rejectComment keyword

theorem placed_catalogList (names : NameSet) :
    Placed cursor (catalogList keyword names cursor) := by
  refine placed_withEquality keyword fun operator next hlead => ?_
  have hfinds := finds_arguments next
  rcases hwords : next.arguments with ⟨words, last⟩
  rw [hwords] at hfinds
  dsimp only
  apply Placed.rejectComment
  rw [List.partition_eq_filter_filter]
  have hmove := hlead.move hfinds
  have hspans : ∀ word ∈ words, cursor.text.Spans word.range := by
    intro word hword
    exact hlead.spans hfinds rfl _ (List.mem_map_of_mem hword)
  -- The names that are known are values, and the others are reported, each where it stands.
  have hnames : Placed cursor
      ({ operator
         values := (words.filter fun word => isKnownName names word.value).map (Located.map .text)
         diagnostics := (words.filter (not ∘ fun word => isKnownName names word.value)).map
          fun word => wrongWord keyword word.range }, last) := by
    refine ⟨hmove.reaches, fun _ => hmove.text_eq rfl, ?_⟩
    intro _ hcursor
    have hwithin := hlead.within rfl hcursor
    refine ⟨hwithin.operator, ?_, hwithin.comment, ?_⟩
    · intro v hv
      obtain ⟨word, hword, rfl⟩ := List.mem_map.mp hv
      exact hspans word (List.mem_filter.mp hword).1
    · intro d hd
      obtain ⟨word, hword, rfl⟩ := List.mem_map.mp hd
      exact Diagnostic.isWithin_of_fix_eq_none (hspans word (List.mem_filter.mp hword).1) rfl
  split
  · apply hnames.report
    intro hedits hcursor
    exact Diagnostic.isWithin_of_fix_eq_none
      (hnames.spans_badFormat hcursor keyword "<Text>..." .conditions hedits) rfl
  · exact hnames

/-- The cursor stays where it is if there is nothing to expand. -/
theorem text_expandHex (h : (expandHex cursor).1 = []) :
    (expandHex cursor).2.text = cursor.text := by
  unfold expandHex at h ⊢
  rcases hhex : cursor.hex with ⟨_ | token, next⟩
  · rw [(scan?_of_read_eq_none hhex).2]
  · rw [hhex] at h
    dsimp only at h ⊢
    split at h
    · cases h
    · exact text_of_scan? (read_eq_some_iff.mp hhex)

theorem placed_color : Placed cursor (color keyword cursor) := by
  refine placed_withEquality keyword fun operator next hlead => ?_
  -- The line is only the same if no colour was expanded.
  have hexpand : Placed cursor ({ operator, edits := (expandHex next).1 }, (expandHex next).2) :=
    ⟨hlead.reaches.tail .expandHex,
      fun hedits => (text_expandHex next hedits).trans (hlead.text_eq rfl),
      fun _ hcursor => within_operator (hlead.within rfl hcursor).operator _⟩
  have hfinds := finds_numbers 4 (expandHex next).2
  rcases hnumbers : (expandHex next).2.numbers 4 with ⟨tokens, last⟩
  rw [hnumbers] at hfinds
  dsimp only
  rw [hnumbers]
  dsimp only
  split
  · exact (hexpand.move hfinds).report_badFormat keyword _ _
  · apply Placed.captureComment
    apply placed_checkNumbers keyword hexpand hfinds
    intro m hm
    obtain ⟨n, hn, rfl⟩ := List.mem_map.mp hm
    exact List.mem_map_of_mem hn

theorem placed_arguments (catalog : Catalog) (rule : ArgumentRule) :
    Placed cursor (arguments catalog keyword rule cursor) := by
  cases rule with
  | range bounds allowed => exact placed_range keyword cursor bounds allowed
  | boolean => exact placed_boolean keyword cursor
  | oneOf allowed => exact placed_oneOf keyword cursor allowed
  | operatorNumber allowed => exact placed_operatorNumber keyword cursor allowed
  | socketGroup => exact placed_socketGroup keyword cursor
  | catalogList names => exact placed_catalogList keyword cursor (catalog.names names)
  | color => exact placed_color keyword cursor
  | alertSound => exact placed_alertSound keyword cursor

/-- The places in what a rule comes to, text left over included. -/
theorem placed_read (catalog : Catalog) (rule : ArgumentRule) :
    Placed cursor (read catalog keyword rule cursor) := by
  have harguments := placed_arguments keyword cursor catalog rule
  rw [read_eq]
  by_cases hdone : ((arguments catalog keyword rule cursor).1.invalid ||
      (arguments catalog keyword rule cursor).2.isEmpty) = true
  · rw [if_pos hdone]
    exact harguments
  · rw [if_neg hdone]
    apply harguments.report
    intro hedits hcursor
    simp only [Bool.or_eq_true, not_or, Bool.not_eq_true] at hdone
    -- The text reaches up to the end of the content, which is known.
    have hspans := (harguments.isMeasured hcursor hedits).spans_rest hdone.2
    rw [harguments.text_eq hedits] at hspans
    refine ⟨hspans, ?_⟩
    intro fix hfix
    rw [leftoverText, harguments.text_eq hedits] at hfix
    exact (Option.mem_some_iff.mp hfix).symm

/-- The places in what may follow the keyword of a block. -/
theorem placed_block (warnings : Bool) : Placed cursor (block keyword warnings cursor) := by
  have hfinds : Finds cursor cursor.comment.2 (cursor.comment.1.toList.map Located.range) :=
    finds_read .comment cursor
  unfold block
  rcases hcomment : cursor.comment with ⟨_ | comment, next⟩
  · rw [hcomment] at hfinds
    dsimp only
    by_cases hquiet : (next.isEmpty || !warnings) = true
    · rw [if_pos hquiet]
      exact placed_of_finds hfinds
    · rw [if_neg hquiet]
      simp only [Bool.or_eq_true, not_or, Bool.not_eq_true] at hquiet
      apply (placed_of_finds hfinds).report
      intro _ _
      refine ⟨?_, fun fix hfix => ?_⟩
      · have hne : next.rest ≠ [] := by
          intro hnil
          rw [isEmpty, hnil] at hquiet
          exact absurd hquiet.1 (by decide)
        rw [← hfinds.text_eq]
        have hspans := spans_append next.consumed [] hne
        rwa [List.append_nil] at hspans
      · rw [ignoredText, hfinds.text_eq] at hfix
        exact (Option.mem_some_iff.mp hfix).symm
  · rw [hcomment] at hfinds
    apply (placed_of_finds hfinds).keep
    intro _
    exact hfinds.spans _ (List.mem_singleton_self _)

end Rule

/-! ## Lines -/

/-- Every place in a classified line is some of the line. -/
structure LineResult.IsWithin (line : Text) (result : LineResult Span) : Prop where
  /-- What the line is and its parts are in the line. -/
  kind : ∀ span ∈ result.kind.places, line.Spans span
  /-- The problems are in the line, and so is what the fixes comment out. -/
  diagnostics : ∀ d ∈ result.diagnostics, d.IsWithin line

namespace Classifier

variable (c : Classifier)

theorem isMeasured_atStart {line : Text} (h : allBlank line = false) :
    (atStart line).IsMeasured :=
  ⟨rfl, h⟩

/-- The body of a comment is recorded where the comment stands. -/
theorem map_range_trailing (comment : Option (Token Text)) :
    (trailing comment).toList.map Located.range = comment.toList.map Located.range := by
  cases comment <;> rfl

theorem isWithin_unknownLine {cursor : Cursor} (hcursor : cursor.IsMeasured)
    (reason : Diagnostic Span) (hspan : cursor.text.Spans reason.range)
    (hfix : reason.fix = none) : (unknownLine cursor reason).IsWithin cursor.text where
  kind := List.forall_mem_singleton.mpr hcursor.spans_content
  diagnostics := List.forall_mem_singleton.mpr (Diagnostic.isWithin_of_fix_eq_none hspan hfix)

theorem isWithin_blockLine {keyword : Token Keyword} {cursor : Cursor}
    (hcursor : cursor.IsMeasured) (hkeyword : cursor.text.Spans keyword.range) :
    (c.blockLine keyword cursor).IsWithin cursor.text := by
  have hplaced := Rule.placed_block keyword.value cursor c.warnings
  have hedits : (Rule.block keyword.value c.warnings cursor).1.edits = [] := by
    unfold Rule.block
    split
    · rfl
    · split <;> rfl
  have hwithin := hplaced.within hedits hcursor
  have hcontent := (hplaced.isMeasured hcursor hedits).spans_content
  rw [hplaced.text_eq hedits] at hcontent
  refine ⟨List.forall_mem_cons.mpr ⟨hcontent, List.forall_mem_cons.mpr ⟨hkeyword, ?_⟩⟩,
    hwithin.diagnostics⟩
  intro span hspan
  rw [map_range_trailing] at hspan
  obtain ⟨t, ht, rfl⟩ := List.mem_map.mp hspan
  exact hwithin.comment t (Option.mem_toList.mp ht)

theorem isWithin_ruleLine {keyword : Token Keyword} {cursor : Cursor}
    (hcursor : cursor.IsMeasured) (hkeyword : cursor.text.Spans keyword.range)
    {category : Category} {rule : ArgumentRule}
    (hedits : (c.ruleLine keyword category rule cursor).edits = []) :
    (c.ruleLine keyword category rule cursor).IsWithin cursor.text := by
  have hplaced := Rule.placed_read keyword.value cursor c.catalog rule
  rw [ruleLine_eq] at hedits ⊢
  have hwithin := hplaced.within hedits hcursor
  have hcontent := (hplaced.isMeasured hcursor hedits).spans_content
  rw [hplaced.text_eq hedits] at hcontent
  refine ⟨List.forall_mem_cons.mpr ⟨hcontent, List.forall_mem_cons.mpr ⟨hkeyword, ?_⟩⟩,
    hwithin.diagnostics⟩
  -- The operator, the values and the comment, in this order.
  intro span hspan
  rcases List.mem_append.mp hspan with hspan | hspan
  · obtain ⟨op, hop, rfl⟩ := List.mem_map.mp hspan
    exact hwithin.operator op (Option.mem_toList.mp hop)
  · rcases List.mem_append.mp hspan with hspan | hspan
    · obtain ⟨v, hv, rfl⟩ := List.mem_map.mp hspan
      exact hwithin.values v hv
    · rw [map_range_trailing] at hspan
      obtain ⟨t, ht, rfl⟩ := List.mem_map.mp hspan
      exact hwithin.comment t (Option.mem_toList.mp ht)

/-- The places in a line that is not edited. -/
theorem isWithin_classify (line : Text) (hedits : (c.classify (atStart line)).edits = []) :
    (c.classify (atStart line)).IsWithin line := by
  by_cases hblank : allBlank line = true
  · have hcomment : (atStart line).isCommented = false := by
      simp [isCommented, trimStart_of_allBlank hblank]
    have hempty : (atStart line).isEmpty = true := hblank
    rw [classify, hcomment, hempty]
    exact ⟨List.forall_mem_nil _, List.forall_mem_nil _⟩
  have hstart := isMeasured_atStart (by simpa using hblank)
  have hempty : (atStart line).isEmpty = false := hstart.visible
  by_cases hcomment : (atStart line).isCommented = true
  · rw [classify, if_pos hcomment]
    exact ⟨List.forall_mem_singleton.mpr hstart.spans_content, List.forall_mem_nil _⟩
  have hfinds : Finds (atStart line) (atStart line).word.2
      ((atStart line).word.1.toList.map Located.range) := finds_read .word (atStart line)
  have hclassify := hedits
  rw [classify, if_neg hcomment, hempty, if_neg (by decide)] at hclassify ⊢
  -- Without a keyword the whole line is reported, or its first word.
  rcases hword : (atStart line).word with ⟨_ | word, next⟩
  · rw [hword] at hfinds
    have hnext := hfinds.isMeasured hstart
    have hunknown := isWithin_unknownLine hnext
      (unreadableKeyword ⟨next.content.start, next.length⟩) hnext.spans_length rfl
    rwa [hfinds.text_eq] at hunknown
  rw [hword] at hfinds hclassify
  dsimp only at hclassify ⊢
  have hnext := hfinds.isMeasured hstart
  have hspan : next.text.Spans word.range := by
    rw [hfinds.text_eq]
    exact hfinds.spans _ (List.mem_singleton_self _)
  have htext : next.text = line := hfinds.text_eq
  cases hname : Keyword.ofName? word.value with
  | none =>
    have hunknown := isWithin_unknownLine hnext (unknownKeyword word) hspan rfl
    rwa [htext] at hunknown
  | some keyword =>
    rw [hname] at hclassify
    dsimp only at hclassify ⊢
    cases hkind : keyword.kind with
    | block =>
      rw [← htext]
      exact c.isWithin_blockLine hnext hspan
    | rule category rule =>
      rw [hkind] at hclassify
      rw [← htext]
      exact c.isWithin_ruleLine hnext hspan hclassify

/-- An edit of a line stands where the text it replaces does. -/
theorem covers_edits (line : Text) (n : Nat) :
    ∀ edit ∈ (c.classify (atStart line)).edits,
      (Range.on n edit.range).Covers n line edit.oldText := by
  by_cases hedits : (c.classify (atStart line)).edits = []
  · rw [hedits]
    exact List.forall_mem_nil _
  · obtain ⟨gap, keyword, rest, category, op, p, after, hgap, hb, rfl, hkind, h⟩ :=
      c.exists_hexLine_of_classify hedits
    obtain ⟨hedits', -⟩ := c.classify_of_hexLine hgap hb hkind h
    rw [hedits', h.line_eq]
    exact List.forall_mem_singleton.mpr
      (Range.covers_on n _ after (matchHex_reads.flush h.hex.spelled).ne_nil)

/-- The places of a line are in the line with its edits made. -/
theorem Edited.isWithin {c : Classifier} {line edited : Text} (h : c.Edited line edited) :
    (c.classify (atStart line)).IsWithin edited := by
  -- The edited line has the same places, and is not edited any further.
  have hwithin := c.isWithin_classify edited (by rw [h.classify_eq]; rfl)
  rw [h.classify_eq] at hwithin
  exact ⟨hwithin.kind, hwithin.diagnostics⟩

/-- Every cut that is made while a line is read succeeds, and every place in the result covers some
text of the edited line: the parts of the line, its problems, and the text that a fix expects there.
An edit covers the text it expects in the line as it was. -/
theorem parse_places (location : Location) {line : Text}
    (hline : ∀ x ∈ line, breaksLine x = false) :
    (∀ cursor, Reachable line cursor → cursor.IsSound ∧ ∀ keyword rule,
      Reachable line (Rule.read c.catalog keyword rule cursor).2 ∧
        Reachable line (Rule.block keyword c.warnings cursor).2) ∧
    ∃ result edited, c.parse location line = .ok result ∧
      Document.editLine line result.edits = (.ok (), edited) ∧
      (∀ edit ∈ result.edits, edit.range.Covers location.line line edit.oldText) ∧
      (∀ range ∈ result.places, ∃ inside, range.Covers location.line edited inside) ∧
      ∀ d ∈ result.diagnostics, ∀ fix ∈ d.fix, fix.edit.range = d.range ∧
        fix.edit.range.Covers location.line edited fix.edit.oldText := by
  constructor
  · intro cursor hcursor
    refine ⟨hcursor.isSound, fun keyword rule => ⟨?_, ?_⟩⟩
    · exact hcursor.trans (Rule.placed_read keyword cursor c.catalog rule).reaches
    · exact hcursor.trans (Rule.placed_block keyword cursor c.warnings).reaches
  obtain ⟨edited, hedited⟩ := c.exists_edited hline
  have hwithin := hedited.isWithin
  refine ⟨_, edited, c.parse_of_unbroken location hline, hedited.editLine_eq location.line,
    ?_, ?_, ?_⟩
  · intro edit hedit
    obtain ⟨edit, hmem, rfl⟩ := List.mem_map.mp hedit
    exact c.covers_edits line location.line edit hmem
  · intro range hrange
    rw [LineResult.place, LineResult.places_map] at hrange
    obtain ⟨span, hspan, rfl⟩ := List.mem_map.mp hrange
    apply Range.exists_covers
    rcases List.mem_append.mp hspan with hspan | hspan
    · exact hwithin.kind span hspan
    · obtain ⟨d, hd, rfl⟩ := List.mem_map.mp hspan
      exact (hwithin.diagnostics d hd).1
  · intro d hd fix hfix
    obtain ⟨d, hmem, rfl⟩ := List.mem_map.mp hd
    obtain ⟨fix, hfix', rfl⟩ := Option.map_eq_some_iff.mp hfix
    obtain ⟨hrange, hcovers⟩ := (hwithin.diagnostics d hmem).covers_fix hfix' location.line
    exact ⟨congrArg (Range.on location.line) hrange, hcovers⟩

set_option maxRecDepth 4000 in
/-- The colour grows by two bytes, and text with a longer character is left over behind it. -/
theorem parse_places_hex :
    (parse ⟨{}, true⟩ ⟨none, 2⟩ "SetTextColor #ff000a é".toList).toOption.map
        (fun result => result.places.map fun range => (range.start, range.stop)) =
      some [(0, 24), (0, 12), (13, 16), (17, 18), (19, 21), (21, 24)] ∧
    (∀ cursor, Reachable "SetTextColor #ff000a é".toList cursor → cursor.IsSound ∧
      ∀ keyword rule,
        Reachable "SetTextColor #ff000a é".toList (Rule.read {} keyword rule cursor).2 ∧
          Reachable "SetTextColor #ff000a é".toList (Rule.block keyword true cursor).2) ∧
    ∃ result edited, parse ⟨{}, true⟩ ⟨none, 2⟩ "SetTextColor #ff000a é".toList = .ok result ∧
      Document.editLine "SetTextColor #ff000a é".toList result.edits = (.ok (), edited) ∧
      (∀ edit ∈ result.edits,
        edit.range.Covers 2 "SetTextColor #ff000a é".toList edit.oldText) ∧
      (∀ range ∈ result.places, ∃ inside, range.Covers 2 edited inside) ∧
      ∀ d ∈ result.diagnostics, ∀ fix ∈ d.fix, fix.edit.range = d.range ∧
        fix.edit.range.Covers 2 edited fix.edit.oldText :=
  ⟨by decide, parse_places ⟨{}, true⟩ ⟨none, 2⟩ (unbroken_iff.mpr (by decide))⟩

end Classifier

end ItemFilter
