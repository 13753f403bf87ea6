import ItemFilter.Proofs.Rewriting

/-!
# Comments behind a line

A comment behind a line does not change what is read in front of it: no operator or value is lost,
and none is found in the comment. Where a comment is allowed it is kept, and elsewhere it is an
error. Whether it is allowed is read off a table of keywords here, and decided by the rule of the
keyword in the reading, so the two have to agree. A line that is edited while it is read is compared
with its edited form, which is followed by the same comment.

## Main definitions

* `LineKind.Agrees`: lines that say the same
* `LineResult.EndsInComment`: what is found in a line with a comment at its end
* `Classifier.Commented`: a valid line and what is found when a comment is put behind it

## Main results

* `Rule.read_commented`: what a rule with a comment behind it comes to
* `Classifier.agrees_of_fits`: lines with the same phrase say the same
* `Classifier.commented_rule`, `Classifier.commented_hexLine`: a comment behind a valid rule
* `Classifier.parse_commented`: a comment behind a valid line
-/

namespace ItemFilter

open Text
open Cursor hiding read

variable {ρ σ : Type}

/-! ## Lines that say the same -/

/-- Two lines that say the same: they open the same block, or hold the same rule with the same
operator and the same values, all of them at the same places. How far the lines go, and what comment
they end with, does not matter. -/
inductive LineKind.Agrees : LineKind ρ → LineKind ρ → Prop
  /-- Both lines open a block. -/
  | block {line other : BlockLine ρ} (keyword : line.keyword = other.keyword) :
    Agrees (.block line) (.block other)
  /-- Both lines hold a rule. -/
  | rule {line other : RuleLine ρ} (keyword : line.keyword = other.keyword)
    (category : line.category = other.category) (operator : line.operator = other.operator)
    (values : line.values = other.values) : Agrees (.rule line) (.rule other)

namespace LineKind

theorem Agrees.map (f : ρ → σ) {kind other : LineKind ρ} (h : kind.Agrees other) :
    (kind.map f).Agrees (other.map f) := by
  cases h with
  | block keyword => exact .block (congrArg (Located.mapRange f) keyword)
  | rule keyword category operator values =>
    exact .rule (congrArg (Located.mapRange f) keyword) category
      (congrArg (Option.map (Located.mapRange f)) operator)
      (congrArg (List.map (Located.mapRange f)) values)

/-- The comment at the end of a line with a keyword. -/
def comment? : LineKind ρ → Option (Located ρ Text)
  | block line => line.comment
  | rule line => line.comment
  | _ => none

end LineKind

@[simp] theorem LineResult.comment?_place (result : LineResult Span) (location : Location) :
    (result.place location).kind.comment? =
      result.kind.comment?.map (Located.mapRange (Range.on location.line)) := by
  obtain ⟨kind, -, -⟩ := result
  cases kind <;> rfl

/-- What is found in a line that ends with a comment, whose sign stands behind the text `before`:
the comment is kept where it is allowed, and is the only problem of the line elsewhere. -/
structure LineResult.EndsInComment (keyword : Keyword) (before text : Text)
    (result : LineResult Span) : Prop where
  /-- The line has a keyword. -/
  keyword_eq : result.kind.keyword? = some keyword
  /-- The line is not edited. -/
  edits_eq : result.edits = []
  /-- A comment that is allowed is kept, up to the white space at its ends. -/
  comment_eq : result.kind.comment? =
    if keyword.allowsComment then some ⟨trim text, spanOf before (trimEnd ('#' :: text))⟩ else none
  /-- A comment that is not allowed is reported, up to the end of the line. -/
  diagnostics_eq : result.diagnostics =
    if keyword.allowsComment then [] else [Outcome.badComment keyword (spanOf before ('#' :: text))]

/-! ## Rules and blocks -/

/-- A comment may follow the arguments of a keyword if it may follow those of its rule. -/
theorem Keyword.allowsComment_of_rule {keyword : Keyword} {category : Category}
    {rule : ArgumentRule} (h : keyword.kind = .rule category rule) :
    keyword.allowsComment = rule.allowsComment := by
  cases keyword <;> cases h <;> rfl

/-- A comment does not change what was read in front of it. -/
theorem ArgumentRule.recorded_finish (keyword : Keyword) (rule : ArgumentRule) (outcome : Outcome)
    (cursor : Cursor) :
    (rule.finish keyword outcome cursor).1.operator = outcome.operator ∧
      (rule.finish keyword outcome cursor).1.values = outcome.values := by
  unfold finish Outcome.captureComment Outcome.rejectComment
  split
  · split <;> exact ⟨rfl, rfl⟩
  · split <;> exact ⟨rfl, rfl⟩

namespace Rule

variable {catalog : Catalog} {rule : ArgumentRule} (keyword : Keyword) (cursor : Cursor)

/-- A comment behind the keyword of a block is kept. -/
theorem block_of_comment {warnings : Bool} {p : Segment Text} (hp : p.IsOf Spelling.comment)
    {after : Text} (hafter : allBlank after = true) (hrest : cursor.rest = p.text ++ after) :
    block keyword warnings cursor =
      ({ comment := some (p.token cursor.consumed) }, cursor.pass p.text after) := by
  rw [block, comment_of_segment hp hafter hrest]

/-- Other text behind the keyword of a block is warned about, if warnings are wanted. -/
theorem block_of_not_isCommented {warnings : Bool} (h : cursor.isCommented = false) :
    block keyword warnings cursor =
      if cursor.isEmpty || !warnings then ({}, cursor)
      else
        ({ diagnostics := [ignoredText keyword cursor.text ⟨cursor.offset, cursor.length⟩] },
          cursor) := by
  rw [block, comment_of_not_isCommented h]

/-- What stands behind the keyword of a block is no error. -/
theorem invalid_block (warnings : Bool) :
    (block keyword warnings cursor).1.invalid = false := by
  unfold block
  split
  · rfl
  · split <;> rfl

/-- A phrase is recorded, if the rule stops behind it. -/
theorem recorded_of_fits {r : Phrase} {tail : Text} (h : r.Fits catalog rule cursor.rest tail)
    (hstop : rule.Stops r.values.length (cursor.pass r.text tail)) :
    (read catalog keyword rule cursor).1.operator = (r.outcome cursor.consumed).operator ∧
      (read catalog keyword rule cursor).1.values = (r.outcome cursor.consumed).values := by
  rw [read_eq, arguments_of_fits keyword cursor h hstop]
  split <;> exact rule.recorded_finish keyword (r.outcome cursor.consumed) _

/-- What a rule with a comment behind it comes to. -/
theorem read_commented {r : Phrase} {gap text : Text}
    (h : r.Fits catalog rule cursor.rest (gap ++ '#' :: text)) (hgap : allBlank gap = true) :
    (read catalog keyword rule cursor).1 =
      if rule.allowsComment then
        { r.outcome cursor.consumed with
          comment := some ⟨trimEnd ('#' :: text),
            spanOf (cursor.consumed ++ r.text ++ gap) (trimEnd ('#' :: text))⟩ }
      else (r.outcome cursor.consumed).report
        (Outcome.badComment keyword (spanOf (cursor.consumed ++ r.text ++ gap) ('#' :: text))) := by
  have hne : gap ≠ [] := ne_nil_of_atBoundary h.boundary (isFlush_cons.mpr (by decide))
  exact read_of_comment keyword cursor
    (arguments_of_fits keyword cursor h (rule.stops_of_isClosed _ _ (isClosed_sign hgap text)))
    rfl hgap hne

end Rule

/-! ## Lines -/

namespace Classifier

variable (c : Classifier) {gap rest : Text} {keyword : Keyword} (hgap : allBlank gap = true)

include hgap

/-- Blocks with the same keyword say the same. -/
theorem agrees_of_block (hkind : keyword.kind = .block) (hb : atBoundary rest = true)
    {rest' : Text} (hb' : atBoundary rest' = true) :
    (c.classify (atStart (gap ++ keyword.name.toList ++ rest))).kind.Agrees
      (c.classify (atStart (gap ++ keyword.name.toList ++ rest'))).kind := by
  rw [c.classify_block hkind rfl hgap hb, c.classify_block hkind rfl hgap hb']
  exact .block rfl

/-- The opening of a block is valid, whatever stands behind it. -/
theorem invalid_of_block (hkind : keyword.kind = .block) (hb : atBoundary rest = true) :
    (c.classify (atStart (gap ++ keyword.name.toList ++ rest))).invalid = false := by
  rw [c.classify_block hkind rfl hgap hb]
  exact Rule.invalid_block keyword ⟨gap ++ keyword.name.toList, rest, _⟩ c.warnings

/-- A block with a comment behind its keyword. -/
theorem endsInComment_of_block (hkind : keyword.kind = .block) {blanks : Text}
    (hblanks : allBlank blanks = true) (hne : blanks ≠ []) (text : Text) :
    (c.classify (atStart
      (gap ++ keyword.name.toList ++ (blanks ++ '#' :: text)))).EndsInComment keyword
        (gap ++ keyword.name.toList ++ blanks) text := by
  obtain ⟨after, hsplit, hafter⟩ := exists_commentSegment_append blanks text
  rw [c.classify_block hkind rfl hgap (atBoundary_append hblanks hne _), blockLine,
    Rule.block_of_comment _ _ (isOf_commentSegment hblanks hne text) hafter hsplit]
  have hallows := Keyword.allowsComment_of_block hkind
  refine ⟨rfl, rfl, ?_, by rw [hallows, if_pos rfl]⟩
  rw [hallows, if_pos rfl, ← commentBody_trimEnd text]
  rfl

variable {category : Category} {rule : ArgumentRule} (hkind : keyword.kind = .rule category rule)
  {r : Phrase} {tail : Text} (h : r.Fits c.catalog rule rest tail)

include hkind h

/-- Rules with the same phrase say the same, if they stop behind it. -/
theorem agrees_of_fits
    (hstop : rule.Stops r.values.length (Cursor.pass
      ⟨gap ++ keyword.name.toList, rest, extent (gap ++ keyword.name.toList ++ rest)⟩ r.text tail))
    {rest' tail' : Text} (h' : r.Fits c.catalog rule rest' tail') (hclosed : IsClosed tail') :
    (c.classify (atStart (gap ++ keyword.name.toList ++ rest))).kind.Agrees
      (c.classify (atStart (gap ++ keyword.name.toList ++ rest'))).kind := by
  have hb : atBoundary rest = true := h.rest_eq ▸ h.atBoundary_text tail h.boundary
  have hb' : atBoundary rest' = true := h'.rest_eq ▸ h'.atBoundary_text tail' h'.boundary
  rw [c.classify_rule hkind rfl hgap hb, c.classify_rule hkind rfl hgap hb', ruleLine_eq,
    ruleLine_eq]
  obtain ⟨hoperator, hvalues⟩ := Rule.recorded_of_fits keyword
    ⟨gap ++ keyword.name.toList, rest, extent (gap ++ keyword.name.toList ++ rest)⟩ h hstop
  obtain ⟨hoperator', hvalues'⟩ := Rule.recorded_of_fits keyword
    ⟨gap ++ keyword.name.toList, rest', extent (gap ++ keyword.name.toList ++ rest')⟩ h'
    (rule.stops_of_isClosed _ _ hclosed)
  exact .rule rfl rfl (hoperator.trans hoperator'.symm) (hvalues.trans hvalues'.symm)

/-- A rule with a comment behind its phrase. -/
theorem endsInComment_of_fits {blanks text : Text} (htail : tail = blanks ++ '#' :: text)
    (hblanks : allBlank blanks = true) :
    (c.classify (atStart (gap ++ keyword.name.toList ++ rest))).EndsInComment keyword
      (gap ++ keyword.name.toList ++ r.text ++ blanks) text := by
  subst htail
  have hb : atBoundary rest = true := h.rest_eq ▸ h.atBoundary_text _ h.boundary
  have hread := Rule.read_commented keyword
    ⟨gap ++ keyword.name.toList, rest, extent (gap ++ keyword.name.toList ++ rest)⟩ h hblanks
  rw [c.classify_rule hkind rfl hgap hb, ruleLine_eq, hread]
  have hallows := Keyword.allowsComment_of_rule hkind
  cases hrule : rule.allowsComment with
  | true =>
    rw [hrule] at hallows
    refine ⟨rfl, rfl, ?_, by rw [hallows]; rfl⟩
    rw [hallows, if_pos rfl, ← commentBody_trimEnd text]
    rfl
  | false =>
    rw [hrule] at hallows
    exact ⟨rfl, rfl, by rw [hallows]; rfl, by rw [hallows]; rfl⟩

end Classifier

/-! ## Valid lines -/

namespace ArgumentRule

variable {rule : ArgumentRule} {tail : Text}

/-- A comment behind the end of a rule is the comment of the rule, or a part of it. -/
theorem Ends.exists_sign (h : rule.Ends tail) {blanks : Text} (hblanks : allBlank blanks = true)
    (text : Text) :
    ∃ before body, tail ++ (blanks ++ '#' :: text) = before ++ '#' :: body ∧
      allBlank before = true ∧
      (rule.allowsComment = false → before = tail ++ blanks ∧ body = text) := by
  rcases h with hblank | ⟨hallows, hhead⟩
  · exact ⟨tail ++ blanks, text, (List.append_assoc ..).symm,
      by rw [allBlank_append, hblank, hblanks]; rfl, fun _ => ⟨rfl, rfl⟩⟩
  · obtain ⟨before, body, rfl, hbefore⟩ := ItemFilter.exists_sign hhead
    exact ⟨before, body ++ (blanks ++ '#' :: text), by simp, hbefore,
      fun hnot => absurd (hallows.symm.trans hnot) (by decide)⟩

end ArgumentRule

namespace Rule

variable {op : Option (Segment Operator)} {p : Segment Text} {after : Text}

/-- More text may stand behind what follows a colour. -/
theorem HexLine.extend {rest suffix : Text} (h : HexLine rest op p after)
    (hb : atBoundary suffix = true) : HexLine (rest ++ suffix) op p (after ++ suffix) where
  operator := h.operator
  equality := h.equality
  hex := h.hex
  boundary := atBoundary_append_append h.boundary hb
  rest_eq := by simp [h.rest_eq]

end Rule

namespace Classifier

/-- A line with a keyword, and what is found when a comment is put behind it: nothing else than in
front of the comment, which is the one error of the line if it is not allowed. -/
structure Commented (c : Classifier) (line blanks text : Text) (keyword : Keyword) : Prop where
  /-- The line says the same. -/
  agrees : (c.classify (atStart line)).kind.Agrees
    (c.classify (atStart (line ++ blanks ++ '#' :: text))).kind
  /-- A comment that is allowed is no error. -/
  valid_of_allowed : keyword.allowsComment = true →
    (c.classify (atStart (line ++ blanks ++ '#' :: text))).invalid = false
  /-- A comment that is not allowed is the one problem, from its sign to the end of the line. -/
  diagnostics_eq : keyword.allowsComment = false →
    (c.classify (atStart (line ++ blanks ++ '#' :: text))).diagnostics =
      [Outcome.badComment keyword (spanOf (line ++ blanks) ('#' :: text))]

/-- The commented line is invalid exactly if the comment is not allowed. -/
theorem Commented.invalid_iff {c : Classifier} {line blanks text : Text} {keyword : Keyword}
    (h : c.Commented line blanks text keyword) :
    (c.classify (atStart (line ++ blanks ++ '#' :: text))).invalid = true ↔
      keyword.allowsComment = false := by
  cases hallows : keyword.allowsComment with
  | true =>
    rw [h.valid_of_allowed hallows]
    decide
  | false =>
    rw [LineResult.invalid, h.diagnostics_eq hallows]
    exact iff_of_true rfl rfl

/-- A valid rule that is not edited is a phrase and an end. -/
theorem exists_fits_of_valid (c : Classifier) {gap rest : Text} {keyword : Keyword}
    (hgap : allBlank gap = true) (hb : atBoundary rest = true) {category : Category}
    {rule : ArgumentRule} (hkind : keyword.kind = .rule category rule)
    (hedits : (c.classify (atStart (gap ++ keyword.name.toList ++ rest))).edits = [])
    (hvalid : (c.classify (atStart (gap ++ keyword.name.toList ++ rest))).invalid = false) :
    ∃ r tail, Phrase.Fits c.catalog rule rest tail r ∧ rule.Ends tail := by
  rw [c.classify_rule hkind rfl hgap hb, ruleLine_eq] at hedits hvalid
  rw [Rule.edits_read] at hedits
  exact (Rule.read_valid_iff keyword
    ⟨gap ++ keyword.name.toList, rest, extent (gap ++ keyword.name.toList ++ rest)⟩ hb
    hedits).mp hvalid

section Commented

variable (c : Classifier) {gap rest blanks : Text} {keyword : Keyword}
  (hgap : allBlank gap = true) (hb : atBoundary rest = true) (hblanks : allBlank blanks = true)
  (hne : blanks ≠ []) (text : Text)

include hgap hb hblanks hne

/-- The opening of a block with a comment behind it. -/
theorem commented_block (hkind : keyword.kind = .block) :
    c.Commented (gap ++ keyword.name.toList ++ rest) blanks text keyword := by
  have hb' := atBoundary_append_append hb (atBoundary_append hblanks hne ('#' :: text))
  have hallows := Keyword.allowsComment_of_block hkind
  have hline : gap ++ keyword.name.toList ++ rest ++ blanks ++ '#' :: text =
      gap ++ keyword.name.toList ++ (rest ++ (blanks ++ '#' :: text)) := by simp
  refine ⟨?_, fun _ => ?_, fun h => absurd (hallows.symm.trans h) (by decide)⟩
  · rw [hline]
    exact c.agrees_of_block hgap hkind hb hb'
  · rw [hline]
    exact c.invalid_of_block hgap hkind hb'

/-- A valid rule that is not edited, with a comment behind it. -/
theorem commented_rule {category : Category} {rule : ArgumentRule}
    (hkind : keyword.kind = .rule category rule)
    (hedits : (c.classify (atStart (gap ++ keyword.name.toList ++ rest))).edits = [])
    (hvalid : (c.classify (atStart (gap ++ keyword.name.toList ++ rest))).invalid = false) :
    c.Commented (gap ++ keyword.name.toList ++ rest) blanks text keyword := by
  obtain ⟨r, tail, hfits, hends⟩ := c.exists_fits_of_valid hgap hb hkind hedits hvalid
  -- The same phrase is found again, and what ends the line behind it is a comment.
  have hfits' := hfits.extend (atBoundary_append hblanks hne ('#' :: text))
  obtain ⟨before, body, htail, hbefore, hsame⟩ := hends.exists_sign hblanks text
  have hcomment := c.endsInComment_of_fits hgap hkind hfits' htail hbefore
  have hagrees := c.agrees_of_fits hgap hkind hfits
    (rule.stops_of_isClosed _ _ hends.isClosed) hfits'
    (htail ▸ isClosed_sign hbefore body)
  have hline : gap ++ keyword.name.toList ++ (rest ++ (blanks ++ '#' :: text)) =
      gap ++ keyword.name.toList ++ rest ++ blanks ++ '#' :: text := by simp
  rw [hline] at hcomment hagrees
  refine ⟨hagrees, fun hallows => ?_, fun hallows => ?_⟩
  · rw [LineResult.invalid, hcomment.diagnostics_eq, if_pos hallows]
    rfl
  · rw [Keyword.allowsComment_of_rule hkind] at hallows
    obtain ⟨rfl, rfl⟩ := hsame hallows
    rw [hcomment.diagnostics_eq, Keyword.allowsComment_of_rule hkind, hallows, if_neg (by decide)]
    simp [hfits.rest_eq]

/-- A valid rule with a colour that has to be expanded, with a comment behind it. -/
theorem commented_hexLine {category : Category} (hkind : keyword.kind = .rule category .color)
    {op : Option (Segment Operator)} {p : Segment Text} {after : Text}
    (h : Rule.HexLine rest op p after)
    (hvalid : (c.classify (atStart (gap ++ keyword.name.toList ++ rest))).invalid = false) :
    c.Commented (gap ++ keyword.name.toList ++ rest) blanks text keyword := by
  have hopen := atBoundary_append hblanks hne ('#' :: text)
  have hb' := atBoundary_append_append hb hopen
  have h' := h.extend hopen
  have hallows : keyword.allowsComment = true := Keyword.allowsComment_of_rule hkind
  -- Both lines are read like the lines with the colour expanded, which are not edited any more.
  obtain ⟨-, hclassify⟩ := c.classify_of_hexLine hgap hb hkind h
  obtain ⟨-, hclassify'⟩ := c.classify_of_hexLine hgap hb' hkind h'
  have hline : gap ++ keyword.name.toList ++ (rest ++ (blanks ++ '#' :: text)) =
      gap ++ keyword.name.toList ++ rest ++ blanks ++ '#' :: text := by simp
  generalize HexColor.channelsOf p.lexeme = channels at hclassify hclassify'
  have hexpanded : gap ++ keyword.name.toList ++ Segment.texts op.toList ++ p.gap ++
        HexColor.decimalText channels ++ after =
      gap ++ keyword.name.toList ++
        (Segment.texts op.toList ++ (p.gap ++ HexColor.decimalText channels ++ after)) := by simp
  have hexpanded' : gap ++ keyword.name.toList ++ Segment.texts op.toList ++ p.gap ++
        HexColor.decimalText channels ++ (after ++ (blanks ++ '#' :: text)) =
      gap ++ keyword.name.toList ++
        (Segment.texts op.toList ++ (p.gap ++ HexColor.decimalText channels ++ after)) ++
        blanks ++ '#' :: text := by simp
  rw [hexpanded] at hclassify
  rw [hexpanded', hline] at hclassify'
  have hcommented := c.commented_rule hgap (h.atBoundary_expanded channels) hblanks hne text hkind
    (by rw [hclassify]; rfl) (by rw [hclassify]; exact hvalid)
  refine ⟨?_, fun _ => ?_, fun hnot => absurd (hallows.symm.trans hnot) (by decide)⟩
  · have hagrees := hcommented.agrees
    rwa [hclassify, hclassify'] at hagrees
  · have hvalid' := hcommented.valid_of_allowed hallows
    rwa [hclassify'] at hvalid'

omit hgap hb in
/-- A valid line with a keyword, with a comment behind it. -/
theorem commented {line : Text}
    (hkeyword : (c.classify (atStart line)).kind.keyword? = some keyword)
    (hvalid : (c.classify (atStart line)).invalid = false) :
    c.Commented line blanks text keyword := by
  by_cases hedits : (c.classify (atStart line)).edits = []
  · rcases c.classify_cases line with ⟨gap, other, rest, hgap, hb, rfl⟩ | ⟨-, hnone, -⟩
    · obtain rfl := Option.some.inj ((c.keyword?_of_boundary hgap hb).symm.trans hkeyword)
      cases hkind : other.kind with
      | block => exact c.commented_block hgap hb hblanks hne text hkind
      | rule category rule => exact c.commented_rule hgap hb hblanks hne text hkind hedits hvalid
    · rw [hnone] at hkeyword
      cases hkeyword
  · obtain ⟨gap, other, rest, category, op, p, after, hgap, hb, rfl, hkind, h⟩ :=
      c.exists_hexLine_of_classify hedits
    obtain rfl := Option.some.inj ((c.keyword?_of_boundary hgap hb).symm.trans hkeyword)
    exact c.commented_hexLine hgap hb hblanks hne text hkind h hvalid

end Commented

/-- A comment behind a valid line with a keyword leaves the keyword, the operator and the values as
they are. The line is invalid with it exactly if the keyword allows no comment, and then the comment
is the only problem. -/
theorem parse_commented (c : Classifier) (location : Location) {line blanks text : Text}
    {result : LineResult Range} {keyword : Keyword} (hparse : c.parse location line = .ok result)
    (hvalid : result.invalid = false) (hkeyword : result.kind.keyword? = some keyword)
    (hblanks : allBlank blanks = true) (hne : blanks ≠ [])
    (hunbroken : ∀ x ∈ blanks ++ text, breaksLine x = false) :
    ∃ again, c.parse location (line ++ blanks ++ '#' :: text) = .ok again ∧
      result.kind.Agrees again.kind ∧
      (again.invalid = true ↔ keyword.allowsComment = false) ∧
      (keyword.allowsComment = false → again.diagnostics =
        [(Outcome.badComment keyword (spanOf (line ++ blanks) ('#' :: text))).map
          (Range.on location.line) location.file]) := by
  have hline := unbroken_of_parse hparse
  have hline' : Unbroken (line ++ blanks ++ '#' :: text) := by
    obtain ⟨hfirst, hlast⟩ := List.forall_mem_append.mp hunbroken
    exact unbroken_append.mpr ⟨unbroken_append.mpr ⟨hline, hfirst⟩,
      List.forall_mem_cons.mpr ⟨by decide, hlast⟩⟩
  rw [c.parse_of_unbroken location hline] at hparse
  obtain rfl := Except.ok.inj hparse
  rw [LineResult.keyword?_place] at hkeyword
  rw [LineResult.invalid_place] at hvalid
  have h := c.commented hblanks hne text hkeyword hvalid
  refine ⟨_, c.parse_of_unbroken location hline', h.agrees.map _, ?_, fun hallows => ?_⟩
  · rw [LineResult.invalid_place]
    exact h.invalid_iff
  · rw [LineResult.diagnostics_place, h.diagnostics_eq hallows]
    rfl

/-- A comment behind a condition is an error. -/
theorem parse_commented_condition :
    ∃ result again, parse ⟨{}, true⟩ {} "LinkedSockets >= 5 ".toList = .ok result ∧
      result.invalid = false ∧ result.kind.keyword? = some .linkedSockets ∧
      parse ⟨{}, true⟩ {} "LinkedSockets >= 5  # five".toList = .ok again ∧
      result.kind.Agrees again.kind ∧ again.invalid = true := by
  obtain ⟨result, hparse, hvalid, hkeyword⟩ : ∃ result,
      parse ⟨{}, true⟩ {} "LinkedSockets >= 5 ".toList = .ok result ∧ result.invalid = false ∧
      result.kind.keyword? = some .linkedSockets := ⟨_, rfl, rfl, rfl⟩
  have hblanks : allBlank " ".toList = true := rfl
  have hunbroken : Unbroken (" ".toList ++ " five".toList) := unbroken_iff.mpr (by decide)
  obtain ⟨again, hagain, hagrees, hinvalid, -⟩ :=
    parse_commented ⟨{}, true⟩ {} hparse hvalid hkeyword hblanks (by decide) hunbroken
  exact ⟨result, again, hparse, hvalid, hkeyword, hagain, hagrees, hinvalid.mpr rfl⟩

end Classifier

end ItemFilter
