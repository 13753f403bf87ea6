import ItemFilter.Document.Linting
import ItemFilter.Proofs.KeywordLine
import ItemFilter.Proofs.RuleReading

/-!
# Reading an edited line again

A hexadecimal colour is expanded in the middle of a run of the cursor, which then goes on in the
expansion. The same run is made again from the start of the edited line: the operator is found
where it was, no colour is found where there was one, and from the first channel on both runs are
at the same place with the same extent. So the edited line is classified like the line, except that
nothing is left to be edited.

## Main definitions

* `Rule.HexLine`: a colour that has to be expanded, as it stands in a line
* `LineResult.withoutEdits`: a classified line whose edits were made

## Main results

* `Rule.HexLine.color_eq`: the arguments of a colour before and after it was expanded
* `Classifier.exists_edited`: a line and the line with its edits made
-/

namespace ItemFilter

open Text HexColor
open Cursor hiding read

/-! ## Outcomes up to their edits -/

namespace Outcome

/-- The outcome of a line whose edits were made. -/
def withoutEdits (outcome : Outcome) : Outcome :=
  { outcome with edits := [] }

@[simp] theorem invalid_withoutEdits (outcome : Outcome) :
    outcome.withoutEdits.invalid = outcome.invalid := rfl

theorem captureComment_withoutEdits (outcome : Outcome) (cursor : Cursor) :
    captureComment outcome.withoutEdits cursor =
      ((captureComment outcome cursor).1.withoutEdits, (captureComment outcome cursor).2) := by
  unfold captureComment
  split <;> rfl

end Outcome

theorem Rule.checkNumbers_withoutEdits (keyword : Keyword) (outcome : Outcome)
    (numbers : List (Token Int × Bounds)) :
    checkNumbers keyword outcome.withoutEdits numbers =
      (checkNumbers keyword outcome numbers).withoutEdits := by
  rw [checkNumbers_eq, checkNumbers_eq]
  split <;> rfl

/-! ## Colours -/

/-- Numbers are read alike on both sides of white space, if there is one. -/
theorem numbers_skip {consumed gap text : Text} {content : Span} (hgap : allBlank gap = true)
    (htext : IsFlush text) (hsome : scan? matchNumber ⟨consumed, gap ++ text, content⟩ ≠ none)
    (k : Nat) :
    numbers (k + 1) ⟨consumed ++ gap, text, content⟩ =
      numbers (k + 1) ⟨consumed, gap ++ text, content⟩ := by
  have hskip : scan? matchNumber ⟨consumed ++ gap, text, content⟩ = _ :=
    scan?_skip matchNumber hgap htext
  obtain ⟨⟨token, next⟩, hscan⟩ := Option.ne_none_iff_exists'.mp hsome
  simp [numbers, number, Cursor.read, hskip, hscan]

namespace Rule

/-- A colour that has to be expanded, as it stands in a line: an operator that is `=`, if there is
one, a hexadecimal colour, and what follows. -/
structure HexLine (rest : Text) (op : Option (Segment Operator)) (p : Segment Text)
    (after : Text) : Prop where
  /-- The operator is a segment of the line. -/
  operator : ∀ q ∈ op, q.IsOf Spelling.operator
  /-- No other operator is allowed. -/
  equality : IsEquality (op.map Segment.value)
  /-- The colour is a segment of the line. -/
  hex : p.IsOf Spelling.hex
  /-- The colour ends at a boundary. -/
  boundary : atBoundary after = true
  /-- The operator, the colour and what follows make up the text. -/
  rest_eq : rest = Segment.texts op.toList ++ (p.text ++ after)

variable {keyword : Keyword} {cursor : Cursor} {op : Option (Segment Operator)} {p : Segment Text}
  {after : Text}

/-- A colour is only edited if it has to be expanded. -/
theorem exists_hexLine (hb : atBoundary cursor.rest = true)
    (hedits : (color keyword cursor).1.edits ≠ []) :
    ∃ op p after, HexLine cursor.rest op p after := by
  obtain ⟨op, between, hop, hrest, hbetween, hoperator⟩ := exists_segments_of_operator hb
  have hvalues := Segment.map_value_token cursor.consumed op
  -- Another operator than `=` is reported before a colour is looked for.
  by_cases heq : IsEquality (op.map Segment.value)
  · rcases expandHex_cases (cursor.pass (Segment.texts op.toList) between) hbetween with
      h | ⟨p, after, hp, hrest', hafter⟩
    · refine absurd ?_ hedits
      rw [color_eq keyword hoperator (hvalues ▸ heq) h, edits_colorFrom]
    · exact ⟨op, p, after, hop, heq, hp, hafter, hrest ▸ hrest' ▸ rfl⟩
  · refine absurd ?_ hedits
    obtain ⟨span, hbad⟩ := withEquality_of_not_isEquality keyword hoperator
      (by rwa [hvalues]) _
    rw [color, hbad]

/-- The channels of an expanded colour stand in a row, the first one behind the white space that was
in front of the colour. -/
theorem exists_channelSegments_cons {gap : Text} (hgap : allBlank gap = true) (hne : gap ≠ [])
    {channels : List Nat} (hchannels : channels ≠ []) (hbound : ∀ n ∈ channels, n < 256)
    (after : Text) :
    ∃ q qs, channelSegments gap channels = q :: qs ∧ q.IsOf Spelling.number ∧
      (∀ r ∈ qs, r.IsOf Spelling.number) ∧
      gap ++ (decimalText channels ++ after) = q.text ++ (Segment.texts qs ++ after) := by
  have hsegments := channelSegments_isOf hgap hne hbound
  obtain ⟨q, qs, hqs⟩ : ∃ q qs, channelSegments gap channels = q :: qs :=
    List.exists_cons_of_length_pos (by simpa using List.length_pos_iff.mpr hchannels)
  rw [hqs, List.forall_mem_cons] at hsegments
  refine ⟨q, qs, hqs, hsegments.1, hsegments.2, ?_⟩
  rw [← List.append_assoc, ← texts_channelSegments gap hchannels, hqs, Segment.texts_cons,
    List.append_assoc]

section Channels

variable {consumed gap : Text} {channels : List Nat} (content : Span)
  (hop : ∀ q ∈ op, q.IsOf Spelling.operator) (heq : IsEquality (op.map Segment.value))
  (hgap : allBlank gap = true) (hne : gap ≠ []) (hchannels : channels ≠ [])
  (hbound : ∀ n ∈ channels, n < 256)

include hop heq hgap hne hchannels hbound

/-- Nothing is left to be expanded in front of the channels of an expanded colour. -/
theorem color_expanded (keyword : Keyword) :
    color keyword ⟨consumed, Segment.texts op.toList ++ (gap ++ decimalText channels ++ after),
        content⟩ =
      colorFrom keyword (op.map (Segment.token consumed)) []
        ⟨consumed ++ Segment.texts op.toList, gap ++ (decimalText channels ++ after),
          content⟩ := by
  obtain ⟨q, qs, -, hq, -, htexts⟩ := exists_channelSegments_cons hgap hne hchannels hbound after
  have hnumber := matchNumber_reads.flush hq.spelled
  have hoperator : Cursor.operator ⟨consumed,
        Segment.texts op.toList ++ (gap ++ decimalText channels ++ after), content⟩ =
      (op.map (Segment.token consumed),
        ⟨consumed ++ Segment.texts op.toList, gap ++ (decimalText channels ++ after),
          content⟩) := by
    rw [List.append_assoc, htexts]
    exact operator_of_segments hop Spelling.operator_apart_number hq hnumber rfl
  exact Rule.color_eq keyword hoperator (by rwa [Segment.map_value_token])
    (expandHex_of_number hq htexts)

/-- The channels of an expanded colour are read from the start of the line, as they are from the
place where the colour was. -/
theorem color_of_channels (keyword : Keyword) (hb : atBoundary after = true) :
    color keyword ⟨consumed, Segment.texts op.toList ++ (gap ++ decimalText channels ++ after),
        content⟩ =
      colorFrom keyword (op.map (Segment.token consumed)) []
        ⟨consumed ++ Segment.texts op.toList ++ gap, decimalText channels ++ after, content⟩ := by
  have hflush : IsFlush (decimalText channels ++ after) :=
    (decimalText_solid hchannels).1.append after
  obtain ⟨q, qs, -, hq, hqs, htexts⟩ := exists_channelSegments_cons hgap hne hchannels hbound after
  -- The numbers start behind the operator here, so the white space has still to be skipped.
  have hread := hq.read matchNumber_reads ⟨consumed ++ Segment.texts op.toList,
      gap ++ (decimalText channels ++ after), content⟩ htexts
    (Segment.atBoundary_texts hqs hb)
  have hskip := numbers_skip hgap hflush (by rw [read_eq_some_iff.mp hread]; simp) 3
  rw [color_expanded content hop heq hgap hne hchannels hbound keyword, colorFrom, colorFrom, hskip]

end Channels

/-- From the channels on, edits that were made do not matter. -/
theorem colorFrom_withoutEdits (keyword : Keyword) (operator : Option (Token Operator))
    (edits : List (TextEdit Span)) (start : Cursor) :
    colorFrom keyword operator [] start =
      ((colorFrom keyword operator edits start).1.withoutEdits,
        (colorFrom keyword operator edits start).2) := by
  unfold colorFrom
  split
  · rfl
  · rw [← Outcome.captureComment_withoutEdits, ← checkNumbers_withoutEdits]
    rfl

variable {rest : Text}

/-- The colour in its line. -/
theorem HexLine.line_eq (h : HexLine rest op p after) (start : Text) :
    start ++ rest = start ++ Segment.texts op.toList ++ p.gap ++ p.lexeme ++ after := by
  rw [h.rest_eq, Segment.text]
  simp

/-- The line with the colour expanded ends where its content ends. -/
theorem HexLine.extent_expanded (h : HexLine rest op p after) (start : Text)
    {channels : List Nat} (hchannels : channels ≠ []) :
    extent (start ++ Segment.texts op.toList ++ p.gap ++ decimalText channels ++ after) =
      ⟨(extent (start ++ rest)).start, (extent (start ++ rest)).stop +
        byteLength (decimalText channels) - byteLength p.lexeme⟩ := by
  have hsolid := decimalText_solid hchannels
  rw [h.line_eq]
  exact extent_replace _ after (matchHex_reads.flush h.hex.spelled) hsolid.1
    (Spelling.hex_trimEnd h.hex.spelled) hsolid.2.1

/-- The arguments start at a boundary after the colour was expanded. -/
theorem HexLine.atBoundary_expanded (h : HexLine rest op p after) (channels : List Nat) :
    atBoundary (Segment.texts op.toList ++ (p.gap ++ decimalText channels ++ after)) = true := by
  refine Segment.atBoundary_texts (fun q hq => h.operator q (by simpa using hq)) ?_
  rw [List.append_assoc]
  exact atBoundary_append h.hex.blank h.hex.gap_ne_nil _

/-- The line with the colour expanded: the channels are read as they are from the line as it was,
and leave nothing to be edited. -/
theorem HexLine.color_eq (keyword : Keyword) (cursor : Cursor)
    (h : HexLine cursor.rest op p after) :
    (color keyword cursor).1.edits =
        [⟨spanOf (cursor.consumed ++ Segment.texts op.toList ++ p.gap) p.lexeme, p.lexeme,
          decimalText (channelsOf p.lexeme)⟩] ∧
      color keyword ⟨cursor.consumed,
          Segment.texts op.toList ++ (p.gap ++ decimalText (channelsOf p.lexeme) ++ after),
          ⟨cursor.content.start, cursor.content.stop +
            byteLength (decimalText (channelsOf p.lexeme)) - byteLength p.lexeme⟩⟩ =
        ((color keyword cursor).1.withoutEdits, (color keyword cursor).2) := by
  have hoperator := operator_of_segments h.operator Spelling.operator_apart_hex h.hex
    (matchHex_reads.flush h.hex.spelled) h.rest_eq
  obtain ⟨-, hbound, -⟩ := channelsOf_of_spelled h.hex.spelled
  have hexpand := expandHex_of_hex h.hex
    (cursor.pass (Segment.texts op.toList) (p.text ++ after)) rfl h.boundary
  have hcolor := Rule.color_eq keyword hoperator
    (by rw [Segment.map_value_token]; exact h.equality) hexpand
  -- Both runs go on from the first channel, one of them behind the edit.
  constructor
  · rw [hcolor, edits_colorFrom]
    rfl
  · rw [hcolor, ← colorFrom_withoutEdits]
    exact color_of_channels _ h.operator h.equality h.hex.blank h.hex.gap_ne_nil
      (channelsOf_ne_nil h.hex.spelled) hbound keyword h.boundary

@[simp] theorem edits_read (catalog : Catalog) (keyword : Keyword) (rule : ArgumentRule)
    (cursor : Cursor) :
    (read catalog keyword rule cursor).1.edits =
      (arguments catalog keyword rule cursor).1.edits := by
  rw [read_eq]
  split <;> rfl

/-- Whether something is left over does not depend on the edits. -/
theorem read_withoutEdits (catalog : Catalog) {keyword : Keyword} (rule : ArgumentRule)
    {cursor edited : Cursor}
    (h : arguments catalog keyword rule edited =
      ((arguments catalog keyword rule cursor).1.withoutEdits,
        (arguments catalog keyword rule cursor).2)) :
    read catalog keyword rule edited =
      ((read catalog keyword rule cursor).1.withoutEdits,
        (read catalog keyword rule cursor).2) := by
  rw [read_eq, read_eq, h, Outcome.invalid_withoutEdits]
  split <;> rfl

end Rule

/-! ## Lines -/

/-- The classified line with its edits made. -/
def LineResult.withoutEdits {ρ : Type} (result : LineResult ρ) : LineResult ρ :=
  { result with edits := [] }

@[simp] theorem LineResult.invalid_withoutEdits {ρ : Type} (result : LineResult ρ) :
    result.withoutEdits.invalid = result.invalid := rfl

/-- An edit of a line that holds the expected text is made. -/
theorem Document.editLine_append (n : Nat) (before old new after : Text)
    (edits : List (TextEdit Range)) :
    editLine (before ++ old ++ after) (⟨Range.on n (spanOf before old), old, new⟩ :: edits) =
      editLine (before ++ new ++ after) edits := by
  simp only [editLine, Range.on, spanOf, slice?_append, replace?_append, if_true]

/-- An edit of a line that holds the expected text is made in the document, and changes no other
line. -/
theorem Document.applyEdit_line (document : Document) (done rest : List Text)
    (before old new after : Text) :
    applyEdit { document with lines := done ++ (before ++ old ++ after) :: rest }
        ⟨Range.on done.length (spanOf before old), old, new⟩ =
      .ok { document with lines := done ++ (before ++ new ++ after) :: rest } := by
  -- The line is found at its number, whatever it holds.
  have hline : ∀ line : Text, (done ++ line :: rest)[done.length]? = some line := fun line => by
    rw [List.getElem?_append_right (Nat.le_refl _), Nat.sub_self, List.getElem?_cons_zero]
  have htext : textIn { document with lines := done ++ (before ++ old ++ after) :: rest }
      (Range.on done.length (spanOf before old)) = .ok old := by
    simp only [textIn, line?, Range.on, hline, spanOf, Option.bind_some, slice?_append]
  have hset : setText { document with lines := done ++ (before ++ old ++ after) :: rest }
      (Range.on done.length (spanOf before old)) new =
        .ok { document with lines := done ++ (before ++ new ++ after) :: rest } := by
    simp only [setText, line?, Range.on, hline, spanOf, Option.bind_some, replace?_append]
    rw [List.set_append_right _ _ (Nat.le_refl _), Nat.sub_self, List.set_cons_zero]
  rw [applyEdit, htext]
  exact (if_pos rfl).trans hset

/-- Edits that can be made are made before further ones. -/
theorem Document.editLine_append_of_ok {line edited : Text} {edits : List (TextEdit Range)}
    (h : editLine line edits = (.ok (), edited)) (more : List (TextEdit Range)) :
    editLine line (edits ++ more) = editLine edited more := by
  -- Induction on the edits that can be made, the line changing with each.
  induction edits generalizing line with
  | nil =>
    obtain rfl : line = edited := congrArg Prod.snd h
    rfl
  | cons edit edits ih =>
    rw [List.cons_append, editLine]
    rw [editLine] at h
    split at h
    · split at h
      · next hfound => rw [if_pos hfound, ih h]
      · cases h
    · cases h

/-- The channels of a colour stand in one line. -/
theorem unbroken_decimalText {channels : List Nat} (h : channels ≠ []) :
    Unbroken (decimalText channels) := by
  intro c hc
  rcases (decimalText_solid h).2.2 c hc with rfl | hdigit
  · decide
  · have hne : ∀ d, d.isDigit = false → c ≠ d := by
      rintro d hd rfl
      exact absurd (hdigit.symm.trans hd) (by decide)
    simp [breaksLine, hne '\r' (by decide), hne '\n' (by decide)]

namespace Classifier

/-- The line after its edits were made, and what it is then: the same line without edits. -/
structure Edited (c : Classifier) (line edited : Text) : Prop where
  /-- The edited line has no line breaks either. -/
  unbroken : Unbroken edited
  /-- There is at most one edit. -/
  length_le : (c.classify (atStart line)).edits.length ≤ 1
  /-- The edits can be made. -/
  editLine_eq : ∀ n, Document.editLine line
    ((c.classify (atStart line)).edits.map (TextEdit.map (Range.on n))) = (.ok (), edited)
  /-- The edited line is classified like the line. -/
  classify_eq : c.classify (atStart edited) = (c.classify (atStart line)).withoutEdits

/-- The edited line has nothing left to be edited. -/
theorem Edited.edits_eq {c : Classifier} {line edited : Text} (h : c.Edited line edited) :
    (c.classify (atStart edited)).edits = [] := by
  rw [h.classify_eq]
  rfl

/-- The edited line has the fixes of the line. -/
theorem Edited.fixes_eq {c : Classifier} {line edited : Text} (h : c.Edited line edited) :
    (c.classify (atStart edited)).fixes = (c.classify (atStart line)).fixes := by
  rw [h.classify_eq]
  rfl

/-- A line without edits is its own edited line. -/
theorem edited_self (c : Classifier) {line : Text} (hline : Unbroken line)
    (h : (c.classify (atStart line)).edits = []) : c.Edited line line where
  unbroken := hline
  length_le := by simp [h]
  editLine_eq n := by
    rw [h]
    rfl
  classify_eq := by
    rw [LineResult.withoutEdits, ← h]

/-- Only a rule with a colour that has to be expanded is edited. -/
theorem exists_hexLine_of_edits (c : Classifier) {keyword : Token Keyword} {cursor : Cursor}
    (hb : atBoundary cursor.rest = true) (h : (c.keywordLine keyword cursor).edits ≠ []) :
    ∃ category op p after, keyword.value.kind = .rule category .color ∧
      Rule.HexLine cursor.rest op p after := by
  -- Neither the keyword of a block nor any other rule edits the line.
  unfold keywordLine at h
  split at h
  · refine absurd ?_ h
    simp only [blockLine, Rule.block]
    split
    · rfl
    · split <;> rfl
  · next category rule hkind =>
    rw [ruleLine_eq, Rule.edits_read] at h
    have hcolor : rule = .color := by
      by_contra hne
      exact h ((Rule.isPlain_arguments keyword.value cursor c.catalog rule).unedited
        (beq_eq_false_iff_ne.mpr hne))
    obtain ⟨op, p, after, hhex⟩ := Rule.exists_hexLine hb (hcolor ▸ h)
    exact ⟨category, op, p, after, hcolor ▸ hkind, hhex⟩

/-- A line that is edited is a rule with a colour that has to be expanded. -/
theorem exists_hexLine_of_classify (c : Classifier) {line : Text}
    (h : (c.classify (atStart line)).edits ≠ []) :
    ∃ (gap : Text) (keyword : Keyword) (rest : Text) (category : Category)
      (op : Option (Segment Operator)) (p : Segment Text) (after : Text),
      allBlank gap = true ∧ atBoundary rest = true ∧ line = gap ++ keyword.name.toList ++ rest ∧
        keyword.kind = .rule category .color ∧ Rule.HexLine rest op p after := by
  rcases c.classify_cases line with ⟨gap, keyword, rest, hgap, hb, rfl⟩ | ⟨hnone, -⟩
  · rw [c.classify_keyword keyword rfl hgap hb] at h
    obtain ⟨category, op, p, after, hkind, hhex⟩ := c.exists_hexLine_of_edits hb h
    exact ⟨gap, keyword, rest, category, op, p, after, hgap, hb, rfl, hkind, hhex⟩
  · exact absurd hnone h

section HexLine

variable (c : Classifier) {gap rest : Text} {keyword : Keyword} (hgap : allBlank gap = true)
  (hb : atBoundary rest = true) {category : Category} (hkind : keyword.kind = .rule category .color)
  {op : Option (Segment Operator)} {p : Segment Text} {after : Text}
  (h : Rule.HexLine rest op p after)

include hgap hb hkind h

/-- The one edit of a rule with a colour, and what reading the rule with the colour expanded comes
to. -/
theorem classify_of_hexLine :
    (c.classify (atStart (gap ++ keyword.name.toList ++ rest))).edits =
        [⟨spanOf (gap ++ keyword.name.toList ++ Segment.texts op.toList ++ p.gap) p.lexeme,
          p.lexeme, decimalText (channelsOf p.lexeme)⟩] ∧
      c.classify (atStart (gap ++ keyword.name.toList ++ Segment.texts op.toList ++ p.gap ++
          decimalText (channelsOf p.lexeme) ++ after)) =
        (c.classify (atStart (gap ++ keyword.name.toList ++ rest))).withoutEdits := by
  obtain ⟨hedits, hcolor⟩ := h.color_eq keyword
    ⟨gap ++ keyword.name.toList, rest, extent (gap ++ keyword.name.toList ++ rest)⟩
  have hchannels := channelsOf_ne_nil h.hex.spelled
  have hjoin : gap ++ keyword.name.toList ++
        (Segment.texts op.toList ++ (p.gap ++ decimalText (channelsOf p.lexeme) ++ after)) =
      gap ++ keyword.name.toList ++ Segment.texts op.toList ++ p.gap ++
        decimalText (channelsOf p.lexeme) ++ after := by
    simp
  -- The run from the start of the edited line has the extent of the run that goes on.
  dsimp only at hcolor hedits
  rw [← h.extent_expanded _ hchannels, ← hjoin] at hcolor
  have hbefore := c.classify_rule hkind rfl hgap hb
  have hafter := c.classify_rule hkind rfl hgap (h.atBoundary_expanded (channelsOf p.lexeme))
  constructor
  · rw [hbefore, ruleLine_eq, Rule.edits_read, Rule.arguments, hedits]
  · rw [← hjoin, hbefore, hafter, ruleLine_eq, ruleLine_eq,
      Rule.read_withoutEdits c.catalog .color hcolor]
    rfl

/-- A rule with a colour and the same rule with the colour expanded. -/
theorem edited_of_hexLine (hline : Unbroken (gap ++ keyword.name.toList ++ rest)) :
    c.Edited (gap ++ keyword.name.toList ++ rest)
      (gap ++ keyword.name.toList ++ Segment.texts op.toList ++ p.gap ++
        decimalText (channelsOf p.lexeme) ++ after) := by
  obtain ⟨hedits, hclassify⟩ := c.classify_of_hexLine hgap hb hkind h
  have hsplit := h.line_eq (gap ++ keyword.name.toList)
  refine ⟨?_, ?_, ?_, hclassify⟩
  · rw [hsplit] at hline
    simp only [unbroken_append] at hline ⊢
    exact ⟨⟨hline.1.1, unbroken_decimalText (channelsOf_ne_nil h.hex.spelled)⟩, hline.2⟩
  · rw [hedits]
    exact Nat.le_refl 1
  · intro n
    rw [hedits, hsplit]
    exact Document.editLine_append n _ _ _ _ []

end HexLine

/-- The edits of a line can be made, and the edited line is classified like the line. -/
theorem exists_edited (c : Classifier) {line : Text} (hline : Unbroken line) :
    ∃ edited, c.Edited line edited := by
  -- Unless there is an edit, the line itself will do.
  by_cases hedits : (c.classify (atStart line)).edits = []
  · exact ⟨line, edited_self c hline hedits⟩
  · obtain ⟨gap, keyword, rest, category, op, p, after, hgap, hb, rfl, hkind, h⟩ :=
      c.exists_hexLine_of_classify hedits
    exact ⟨_, c.edited_of_hexLine hgap hb hkind h hline⟩

/-- A line is edited at most once while it is read, the edit can be made, and reading the edited
line again gives the same result, except that nothing is left to be edited. -/
theorem parse_edited (c : Classifier) (location : Location) {line : Text}
    (hline : ∀ x ∈ line, breaksLine x = false) :
    ∃ result edited, c.parse location line = .ok result ∧ result.edits.length ≤ 1 ∧
      Document.editLine line result.edits = (.ok (), edited) ∧
      c.parse location edited = .ok { result with edits := [] } := by
  obtain ⟨edited, h⟩ := c.exists_edited hline
  refine ⟨_, edited, c.parse_of_unbroken location hline, ?_, h.editLine_eq location.line, ?_⟩
  · rw [LineResult.place, LineResult.map, List.length_map]
    exact h.length_le
  · rw [c.parse_of_unbroken location h.unbroken, h.classify_eq]
    rfl

set_option maxRecDepth 4000 in
/-- A colour before a comment is edited, and the edited line is left alone. -/
theorem parse_edited_hex :
    (parse ⟨{}, true⟩ {} "SetTextColor #ff000a # red".toList).toOption.map
        (fun result => result.edits.map TextEdit.newText) = some ["255 0 10".toList] ∧
      ∃ result edited,
        parse ⟨{}, true⟩ {} "SetTextColor #ff000a # red".toList = .ok result ∧
        result.edits.length ≤ 1 ∧
        Document.editLine "SetTextColor #ff000a # red".toList result.edits = (.ok (), edited) ∧
        parse ⟨{}, true⟩ {} edited = .ok { result with edits := [] } :=
  ⟨by decide, parse_edited ⟨{}, true⟩ {} (unbroken_iff.mpr (by decide))⟩

end Classifier

end ItemFilter
