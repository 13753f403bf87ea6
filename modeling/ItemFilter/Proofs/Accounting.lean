import ItemFilter.Proofs.Grammar
import ItemFilter.Proofs.Places

/-!
# A valid rule accounts for its line

The line of a valid rule falls into its keyword, its operator, its values and a comment, in this
order, with nothing but white space between them: no argument is skipped, and none is recorded
twice. What is recorded for each of them is what stands there. The line is the edited one, as the
channels of an expanded colour are found in the expansion.

## Main definitions

* `Text.Tiles`: spans that stand one after another, with white space around them
* `Spelling.written`: how a value is written, numbers being exact

## Main results

* `Text.Tiles.covers`: what no span covers is white space
* `Rule.exists_parts`: the parts that a valid rule was read from
* `Classifier.parse_accounts`: the parts of a valid rule make up its line
-/

namespace ItemFilter

open Text
open Cursor hiding read

variable {α : Type}

/-! ## Tiles -/

namespace Text

/-- The spans of texts that stand one after another behind the text `before`, with nothing but white
space around them. -/
inductive Tiles : Text → Text → List Span → Prop
  /-- Nothing but white space is left. -/
  | blank {before text : Text} (h : allBlank text = true) : Tiles before text []
  /-- A text stands behind white space, and others follow. -/
  | cons {before gap lexeme after : Text} {spans : List Span} (hgap : allBlank gap = true)
      (hne : lexeme ≠ []) (h : Tiles (before ++ gap ++ lexeme) after spans) :
      Tiles before (gap ++ lexeme ++ after) (spanOf (before ++ gap) lexeme :: spans)

variable {before text : Text} {spans : List Span}

/-- All spans stand behind the text in front of them. -/
theorem Tiles.le_start (h : Tiles before text spans) :
    ∀ span ∈ spans, byteLength before ≤ span.start := by
  induction h with
  | blank h => nofun
  | cons hgap hne h ih =>
    intro span hspan
    rcases List.mem_cons.mp hspan with rfl | hspan
    · simp only [spanOf_start, byteLength_append]
      omega
    · have hle := ih span hspan
      simp only [byteLength_append] at hle
      omega

/-- No span is empty. -/
theorem Tiles.start_lt (h : Tiles before text spans) :
    ∀ span ∈ spans, span.start < span.stop := by
  induction h with
  | blank h => nofun
  | @cons before gap lexeme after spans hgap hne h ih =>
    intro span hspan
    rcases List.mem_cons.mp hspan with rfl | hspan
    · exact (spans_append (before ++ gap) after hne).bounds.1
    · exact ih span hspan

/-- Each span ends before the next one starts. -/
theorem Tiles.pairwise (h : Tiles before text spans) :
    spans.Pairwise fun a b => a.stop ≤ b.start := by
  induction h with
  | blank h => exact .nil
  | cons hgap hne h ih =>
    exact List.pairwise_cons.mpr ⟨h.le_start, ih⟩

/-- A character that no span covers is white space. -/
theorem Tiles.covers (h : Tiles before text spans) {left right : Text} {x : Char}
    (hsplit : text = left ++ x :: right) : isBlank x = true ∨ ∃ span ∈ spans,
      span.start ≤ byteLength (before ++ left) ∧
        byteLength (before ++ left ++ [x]) ≤ span.stop := by
  -- Induction on the tiles: the character is in the first of them, or in front of it, or behind it.
  induction h generalizing left with
  | blank h =>
    rw [hsplit] at h
    exact Or.inl (List.all_eq_true.mp h x (by simp))
  | @cons before gap lexeme after spans hgap hne h ih =>
    rcases split_append hsplit with ⟨middle, hfirst, -⟩ | ⟨middle, rfl, hafter⟩
    · rcases split_append hfirst with ⟨inner, rfl, -⟩ | ⟨inner, rfl, hlexeme⟩
      · exact Or.inl (List.all_eq_true.mp hgap x (by simp))
      · refine Or.inr ⟨_, List.mem_cons_self .., ?_, ?_⟩
        · simp only [spanOf_start, byteLength_append]
          omega
        · rw [spanOf_stop, hlexeme]
          simp only [byteLength_append, byteLength_cons, byteLength_nil]
          omega
    · rcases ih hafter with hblank | ⟨span, hspan, hstart, hstop⟩
      · exact Or.inl hblank
      · refine Or.inr ⟨span, List.mem_cons_of_mem _ hspan, ?_, ?_⟩
        · simpa using hstart
        · simpa using hstop

/-- Segments that stand one after another are tiles. -/
theorem Tiles.segments {ps : List (Segment α)}
    (hps : ∀ p ∈ ps, allBlank p.gap = true ∧ p.lexeme ≠ []) {after : Text}
    (h : Tiles (before ++ Segment.texts ps) after spans) :
    Tiles before (Segment.texts ps ++ after)
      ((Segment.tokens before ps).map Located.range ++ spans) := by
  -- Induction on the segments, each of them behind those before it.
  induction ps generalizing before with
  | nil => simpa using h
  | cons p ps ih =>
    rw [List.forall_mem_cons] at hps
    rw [Segment.texts_cons, ← List.append_assoc] at h
    have htail := ih hps.2 h
    rw [Segment.text, ← List.append_assoc] at htail
    rw [Segment.texts_cons, List.append_assoc, Segment.tokens_cons, Segment.text,
      ← List.append_assoc before]
    exact .cons hps.1.1 hps.1.2 htail

end Text

/-- A token of consecutive segments covers its lexeme. -/
theorem Segment.covers_of_mem_tokens {ps : List (Segment α)}
    (hps : ∀ p ∈ ps, allBlank p.gap = true ∧ p.lexeme ≠ []) {before : Text} (after : Text) (n : Nat)
    {token : Token α} (h : token ∈ tokens before ps) :
    ∃ p ∈ ps, token.value = p.value ∧
      (Range.on n token.range).Covers n (before ++ texts ps ++ after) p.lexeme := by
  induction ps generalizing before with
  | nil => cases h
  | cons p ps ih =>
    rw [List.forall_mem_cons] at hps
    rcases List.mem_cons.mp h with rfl | h
    · refine ⟨p, List.mem_cons_self .., rfl, ?_⟩
      have hcovers := Range.covers_on n (before ++ p.gap) (texts ps ++ after) hps.1.2
      simpa [text, token] using hcovers
    · obtain ⟨q, hq, hvalue, hcovers⟩ := ih hps.2 h
      refine ⟨q, List.mem_cons_of_mem _ hq, hvalue, ?_⟩
      simpa using hcovers

/-- The token of a segment, if there is one, as consecutive tokens. -/
theorem Segment.tokens_toList (before : Text) (p : Option (Segment α)) :
    tokens before p.toList = (p.map (token before)).toList := by
  cases p <;> rfl

/-! ## Values -/

/-- How a value is written: a number by its numeral, however large, a truth value by its name, and a
string by itself, bare or between double quotes. -/
def Spelling.written : Spelling Value := fun lexeme v =>
  match v with
  | .number n => numeral lexeme n
  | .boolean b => boolean lexeme b
  | .text t => string lexeme t

/-- A value is written like the token it was read from, unless it is an extreme number. -/
theorem Spelling.written_of_value {lexeme : Text} {v : Value} (h : value lexeme v)
    (hbounds : ∀ n, v = .number n → -9223372036854775808 < n ∧ n < 9223372036854775807) :
    written lexeme v := by
  cases v with
  | number n => exact numeral_of_number h (hbounds n rfl).1 (hbounds n rfl).2
  | boolean b => exact h
  | text t => exact h.1

/-- The numbers that a rule admits are no extremes. -/
theorem ArgumentRule.number_bounds {catalog : Catalog} {rule : ArgumentRule}
    (hrule : rule.IsBounded) {operator : Option Operator} {values : List Value}
    (h : rule.Admits catalog operator values) {n : Int} (hn : .number n ∈ values) :
    -9223372036854775808 < n ∧ n < 9223372036854775807 := by
  cases rule with
  | range bounds allowed =>
    obtain ⟨-, m, rfl, hm⟩ := h
    obtain rfl := Value.number.inj (List.mem_singleton.mp hn)
    obtain ⟨hleast, hgreatest⟩ := (Bounds.contains_iff _).mp hm
    obtain ⟨hlow, hhigh⟩ := hrule
    omega
  | operatorNumber allowed =>
    obtain ⟨m, rfl, hm⟩ := h
    obtain rfl := Value.number.inj (List.mem_singleton.mp hn)
    exact hrule n hm
  | color =>
    obtain ⟨-, numbers, rfl, -, -, hbounds⟩ := h
    obtain ⟨m, hm, heq⟩ := List.mem_map.mp hn
    obtain rfl := Value.number.inj heq
    obtain ⟨hleast, hgreatest⟩ := (Bounds.contains_iff _).mp (hbounds m hm)
    simp only [Rule.channelBounds] at hleast hgreatest
    omega
  | alertSound =>
    obtain ⟨-, numbers, rfl, -, htwo, hbounds⟩ := h
    obtain ⟨m, hm, heq⟩ := List.mem_map.mp hn
    obtain rfl := Value.number.inj heq
    -- Each number has bounds, as there are no more numbers than bounds.
    have hfst : (numbers.zip [Rule.soundBounds, Rule.volumeBounds]).map Prod.fst = numbers :=
      List.map_fst_zip (by simpa using htwo)
    rw [← hfst] at hm
    obtain ⟨⟨k, bounds⟩, hk, rfl⟩ := List.mem_map.mp hm
    obtain ⟨hleast, hgreatest⟩ := (Bounds.contains_iff _).mp (hbounds _ hk)
    have hmem := (List.of_mem_zip hk).2
    simp only [List.mem_cons, List.not_mem_nil, or_false] at hmem
    rcases hmem with rfl | rfl
    · simp only [Rule.soundBounds] at hleast hgreatest
      omega
    · simp only [Rule.volumeBounds] at hleast hgreatest
      omega
  | boolean =>
    obtain ⟨-, b, rfl⟩ := h
    cases List.mem_singleton.mp hn
  | oneOf allowed =>
    obtain ⟨word, rfl, -⟩ := h
    cases List.mem_singleton.mp hn
  | socketGroup =>
    obtain ⟨-, word, rfl, -⟩ := h
    cases List.mem_singleton.mp hn
  | catalogList names =>
    obtain ⟨-, words, rfl, -⟩ := h
    obtain ⟨word, -, heq⟩ := List.mem_map.mp hn
    cases heq

/-- What is recorded of a comment is what stands behind its sign. -/
theorem Spelling.exists_body {lexeme value : Text} (h : Spelling.comment lexeme value) :
    ∃ body, lexeme = '#' :: body ∧ commentBody value = trim body := by
  obtain ⟨body, rfl⟩ := Spelling.comment_eq_cons h
  obtain ⟨-, htrim, rfl⟩ := h
  exact ⟨body, rfl, commentBody_cons htrim⟩

/-! ## Rules -/

/-- The parts that the arguments of a valid rule fall into: a phrase that the rule admits, and a
comment, with nothing behind them. -/
structure Rule.Parts (catalog : Catalog) (rule : ArgumentRule) (rest : Text) (r : Phrase)
    (comment : Option (Segment Text)) (after : Text) : Prop where
  /-- The phrase stands in front of the comment. -/
  fits : r.Fits catalog rule rest (Segment.texts comment.toList ++ after)
  /-- The comment is a segment of the line. -/
  comment : ∀ p ∈ comment, p.IsOf Spelling.comment
  /-- Nothing but white space stands behind them. -/
  blank : allBlank after = true

namespace Rule.Parts

variable {catalog : Catalog} {rule : ArgumentRule} {rest after : Text} {r : Phrase}
  {comment : Option (Segment Text)} (h : Rule.Parts catalog rule rest r comment after)

include h

theorem solid_operator : ∀ p ∈ r.operator.toList, allBlank p.gap = true ∧ p.lexeme ≠ [] := by
  intro p hp
  have hspelled := h.fits.operator p (Option.mem_toList.mp hp)
  exact ⟨hspelled.blank, (matchOperator_reads.flush hspelled.spelled).ne_nil⟩

theorem solid_values : ∀ p ∈ r.values, allBlank p.gap = true ∧ p.lexeme ≠ [] := by
  intro p hp
  have hspelled := h.fits.values p hp
  exact ⟨hspelled.blank, (Spelling.value_flush hspelled.spelled).ne_nil⟩

theorem solid_comment : ∀ p ∈ comment.toList, allBlank p.gap = true ∧ p.lexeme ≠ [] := by
  intro p hp
  have hspelled := h.comment p (Option.mem_toList.mp hp)
  exact ⟨hspelled.blank, (Spelling.comment_flush hspelled.spelled).ne_nil⟩

/-- The text from its start up to the end, part by part. -/
theorem append_eq (before : Text) :
    before ++ rest = before ++ Segment.texts r.operator.toList ++ Segment.texts r.values ++
      Segment.texts comment.toList ++ after := by
  rw [h.fits.rest_eq, Phrase.text, Phrase.lead]
  simp

/-- The parts are tiles of the text. -/
theorem tiles (before : Text) :
    Tiles before rest ((Segment.tokens before r.operator.toList).map Located.range ++
      ((Segment.tokens (before ++ r.lead) r.values).map Located.range ++
        (Segment.tokens (before ++ r.text) comment.toList).map Located.range)) := by
  have hlast : Tiles (before ++ Segment.texts r.operator.toList ++ Segment.texts r.values ++
      Segment.texts comment.toList) after [] := .blank h.blank
  have htiles : Tiles before _ _ :=
    .segments h.solid_operator (.segments h.solid_values (.segments h.solid_comment hlast))
  rw [h.fits.rest_eq]
  simpa [Phrase.text, Phrase.lead] using htiles

/-- An operator that was read is spelled out where it stands. -/
theorem covers_operator (before : Text) (n : Nat) {op : Token Operator}
    (hop : op ∈ (r.outcome before).operator) :
    (Range.on n op.range).Covers n (before ++ rest) op.value.spelling := by
  have hmem : op ∈ Segment.tokens before r.operator.toList := by
    rw [Segment.tokens_toList]
    exact Option.mem_toList.mpr hop
  obtain ⟨p, hp, hvalue, hcovers⟩ := Segment.covers_of_mem_tokens h.solid_operator
    (Segment.texts r.values ++ (Segment.texts comment.toList ++ after)) n hmem
  have hspelled : p.lexeme = p.value.spelling :=
    (h.fits.operator p (Option.mem_toList.mp hp)).spelled
  rw [hvalue, ← hspelled, h.append_eq]
  simpa using hcovers

/-- A value that was read is written where it stands. -/
theorem covers_value (hrule : rule.IsBounded) (before : Text) (n : Nat) {v : Token Value}
    (hv : v ∈ (r.outcome before).values) :
    ∃ lexeme, Spelling.written lexeme v.value ∧
      (Range.on n v.range).Covers n (before ++ rest) lexeme := by
  obtain ⟨p, hp, hvalue, hcovers⟩ := Segment.covers_of_mem_tokens h.solid_values
    (Segment.texts comment.toList ++ after) n hv
  refine ⟨p.lexeme, ?_, ?_⟩
  · rw [hvalue]
    refine Spelling.written_of_value (h.fits.values p hp).spelled fun m hm => ?_
    -- The rule admits the value, so it is no number too large to be read exactly.
    exact ArgumentRule.number_bounds hrule h.fits.admitted (hm ▸ List.mem_map_of_mem hp)
  · rw [h.append_eq]
    simpa [Phrase.lead] using hcovers

/-- A comment that was read stands where it is recorded, its body behind its sign. -/
theorem covers_comment (before : Text) (n : Nat) {t : Token Text}
    (ht : t ∈ comment.map (Segment.token (before ++ r.text))) :
    ∃ body, commentBody t.value = trim body ∧
      (Range.on n t.range).Covers n (before ++ rest) ('#' :: body) := by
  have hmem : t ∈ Segment.tokens (before ++ r.text) comment.toList := by
    rw [Segment.tokens_toList]
    exact Option.mem_toList.mpr ht
  obtain ⟨p, hp, hvalue, hcovers⟩ := Segment.covers_of_mem_tokens h.solid_comment after n hmem
  obtain ⟨body, hlexeme, hbody⟩ :=
    Spelling.exists_body (h.comment p (Option.mem_toList.mp hp)).spelled
  refine ⟨body, by rw [hvalue, hbody], ?_⟩
  rw [← hlexeme, h.append_eq]
  simpa [Phrase.text, Phrase.lead] using hcovers

end Rule.Parts

/-- A valid rule was read from its parts. -/
theorem Rule.exists_parts {catalog : Catalog} (keyword : Keyword) (cursor : Cursor)
    {rule : ArgumentRule} (hb : atBoundary cursor.rest = true)
    (hvalid : (read catalog keyword rule cursor).1.invalid = false)
    (hedits : (arguments catalog keyword rule cursor).1.edits = []) :
    ∃ r comment after, Parts catalog rule cursor.rest r comment after ∧
      (read catalog keyword rule cursor).1.operator = (r.outcome cursor.consumed).operator ∧
      (read catalog keyword rule cursor).1.values = (r.outcome cursor.consumed).values ∧
      (read catalog keyword rule cursor).1.comment =
        comment.map (Segment.token (cursor.consumed ++ r.text)) := by
  obtain ⟨harguments, hempty⟩ := (read_invalid_eq_false_iff keyword cursor catalog rule).mp hvalid
  obtain ⟨r, tail, hfits, hstop⟩ := exists_phrase keyword cursor hb harguments hedits
  rw [read_eq, if_pos (by rw [hempty, Bool.or_true])]
  rw [arguments_of_fits keyword cursor hfits hstop] at harguments hempty ⊢
  by_cases hhead : (trimStart tail).head? = some '#'
  · obtain ⟨p, after, hp, htail, hafter⟩ := exists_comment hfits.boundary hhead
    rw [finish_of_comment keyword (cursor.pass r.text tail) hp hafter htail] at harguments hempty ⊢
    have htail' : tail = Segment.texts (some p).toList ++ after := by simpa using htail
    refine ⟨r, some p, after, ⟨htail' ▸ hfits, ?_, hafter⟩, ?_⟩
    · intro q hq
      rwa [← Option.mem_some_iff.mp hq]
    -- a comment that is not allowed would be an error
    · cases hallows : rule.allowsComment with
      | true => exact ⟨rfl, rfl, rfl⟩
      | false => simp [hallows, Outcome.badComment, Diagnostic.isError] at harguments
  · have hcomment : (cursor.pass r.text tail).isCommented = false :=
      isCommented_eq_false_iff.mpr hhead
    rw [finish_of_not_isCommented keyword (cursor.pass r.text tail) hcomment] at hempty ⊢
    refine ⟨r, none, tail, ⟨hfits, ?_, hempty⟩, rfl, rfl, rfl⟩
    intro q hq
    cases hq

/-! ## Lines -/

/-- What is recorded of the parts of a rule stands in the line, and nothing else does. -/
structure RuleLine.Accounts (n : Nat) (line : Text) (rule : RuleLine Range) : Prop where
  /-- The parts stand one after another. -/
  pairwise : rule.parts.Pairwise fun a b => a.stop ≤ b.start
  /-- No part is empty. -/
  start_lt : ∀ range ∈ rule.parts, range.start < range.stop
  /-- What is no part is white space. -/
  covers : ∀ left x right, line = left ++ x :: right → isBlank x = true ∨
    ∃ range ∈ rule.parts, range.start ≤ byteLength left ∧ byteLength (left ++ [x]) ≤ range.stop
  /-- The keyword is there. -/
  keyword : rule.keyword.range.Covers n line rule.keyword.value.name.toList
  /-- The operator is there. -/
  operator : ∀ op ∈ rule.operator, op.range.Covers n line op.value.spelling
  /-- The values are there. -/
  values : ∀ v ∈ rule.values,
    ∃ lexeme, Spelling.written lexeme v.value ∧ v.range.Covers n line lexeme
  /-- The comment is there, its body behind its sign. -/
  comment : ∀ t ∈ rule.comment, ∃ body, t.value = trim body ∧ t.range.Covers n line ('#' :: body)

/-- The ranges of tiles stand one after another in their line, with nothing else around them. -/
theorem Text.Tiles.ranges {line : Text} {spans : List Span} (h : Tiles [] line spans) (n : Nat) :
    ((spans.map (Range.on n)).Pairwise fun a b => a.stop ≤ b.start) ∧
      (∀ range ∈ spans.map (Range.on n), range.start < range.stop) ∧
      ∀ left x right, line = left ++ x :: right → isBlank x = true ∨
        ∃ range ∈ spans.map (Range.on n),
          range.start ≤ byteLength left ∧ byteLength (left ++ [x]) ≤ range.stop := by
  refine ⟨List.pairwise_map.mpr h.pairwise, ?_, ?_⟩
  · intro range hrange
    obtain ⟨span, hspan, rfl⟩ := List.mem_map.mp hrange
    exact h.start_lt span hspan
  · intro left x right hsplit
    rcases h.covers hsplit with hblank | ⟨span, hspan, hstart, hstop⟩
    · exact Or.inl hblank
    · exact Or.inr ⟨Range.on n span, List.mem_map_of_mem hspan, hstart, hstop⟩

namespace Classifier

variable (c : Classifier)

/-- A valid rule that is not edited accounts for its line. -/
theorem accounts_of_valid {line : Text} {rule : RuleLine Span}
    (hkind : (c.classify (atStart line)).kind = .rule rule)
    (hvalid : (c.classify (atStart line)).invalid = false)
    (hedits : (c.classify (atStart line)).edits = []) (n : Nat) :
    (rule.map (Range.on n)).Accounts n line := by
  obtain ⟨gap, keyword, rest, category, arguments, hgap, hb, rfl, hrule⟩ :=
    c.exists_rule_of_kind hkind
  rw [c.classify_rule hrule rfl hgap hb, ruleLine_eq] at hkind hvalid hedits
  obtain ⟨r, comment, after, h, hoperator, hvalues, hcomment⟩ :=
    Rule.exists_parts keyword ⟨gap ++ keyword.name.toList, rest, _⟩ hb hvalid
      (Rule.edits_read .. ▸ hedits)
  obtain rfl := LineKind.rule.inj hkind
  dsimp only at hoperator hvalues hcomment
  rw [hoperator, hvalues, hcomment]
  -- The keyword is the first tile, and the parts behind it are those that were read.
  have htiles : Tiles [] (gap ++ keyword.name.toList ++ rest) _ :=
    .cons hgap keyword.name_ne_nil (h.tiles (gap ++ keyword.name.toList))
  rw [Segment.tokens_toList, Segment.tokens_toList, ← map_range_trailing, List.nil_append] at htiles
  obtain ⟨hpairwise, hlt, hcovers⟩ := htiles.ranges n
  refine ⟨?_, ?_, ?_, Range.covers_on n gap rest keyword.name_ne_nil, ?_, ?_, ?_⟩
  · rw [RuleLine.parts_map]
    exact hpairwise
  · rw [RuleLine.parts_map]
    exact hlt
  · rw [RuleLine.parts_map]
    exact hcovers
  · intro op hop
    obtain ⟨op, hmem, rfl⟩ := Option.map_eq_some_iff.mp hop
    exact h.covers_operator (gap ++ keyword.name.toList) n hmem
  · intro v hv
    obtain ⟨v, hmem, rfl⟩ := List.mem_map.mp hv
    exact h.covers_value (ArgumentRule.isBounded_of_kind hrule) (gap ++ keyword.name.toList) n hmem
  · intro t ht
    obtain ⟨t, hmem, rfl⟩ := Option.map_eq_some_iff.mp ht
    obtain ⟨t, hmem', rfl⟩ := Option.map_eq_some_iff.mp hmem
    exact h.covers_comment (gap ++ keyword.name.toList) n hmem'

/-- The parts of a valid rule make up the edited line: they stand in it one after another, what is
recorded of each of them stands there, and everything else is white space. -/
theorem parse_accounts (location : Location) {line : Text} {result : LineResult Range}
    {rule : RuleLine Range} (hparse : c.parse location line = .ok result)
    (hkind : result.kind = .rule rule) (hvalid : result.invalid = false) :
    ∃ edited, Document.editLine line result.edits = (.ok (), edited) ∧
      rule.Accounts location.line edited := by
  have hline := unbroken_of_parse hparse
  rw [c.parse_of_unbroken location hline] at hparse
  obtain rfl := Except.ok.inj hparse
  -- The edited line is the same rule, and is not edited any further.
  obtain ⟨edited, hedited⟩ := c.exists_edited hline
  refine ⟨edited, hedited.editLine_eq location.line, ?_⟩
  have hclassify := hedited.classify_eq
  rw [LineResult.place, LineResult.map] at hkind
  cases hspans : (c.classify (atStart line)).kind with
  | rule spans =>
    rw [hspans] at hkind
    obtain rfl := LineKind.rule.inj hkind
    refine c.accounts_of_valid ?_ ?_ ?_ location.line
    · rw [hclassify]
      exact hspans
    · rw [hclassify, LineResult.invalid_withoutEdits]
      simpa using hvalid
    · rw [hclassify]
      rfl
  | _ =>
    rw [hspans] at hkind
    cases hkind

set_option maxRecDepth 4000 in
/-- A colour in hexadecimal with an operator, an alpha channel and a comment. -/
theorem parse_accounts_hex :
    ∃ result rule, parse ⟨{}, true⟩ {} "SetTextColor = #ff000a 128 # red".toList = .ok result ∧
      result.kind = .rule rule ∧ result.invalid = false ∧ rule.parts.length = 7 ∧
      ∃ edited, Document.editLine "SetTextColor = #ff000a 128 # red".toList result.edits =
          (.ok (), edited) ∧ rule.Accounts 0 edited :=
  ⟨_, _, rfl, rfl, by decide, rfl, parse_accounts ⟨{}, true⟩ {} rfl rfl (by decide)⟩

end Classifier

end ItemFilter
