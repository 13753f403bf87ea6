import ItemFilter.Proofs.TrailingComment

/-!
# Commenting text out

The fix of a line puts a comment sign in front of the text that is left over behind what was read.
The same phrase is found again in the fixed line, and a comment behind it. Where a comment is
allowed nothing is wrong with the line any more; elsewhere the comment takes the place of the
leftover text as the one error of the line, and has no fix.

## Main definitions

* `Classifier.Leftover`: a line with leftover text and its fix

## Main results

* `Classifier.leftover_cases`: every line is left as it is or has leftover text
* `Classifier.parse_fixed`: what the fixes of a line repair
* `Classifier.parse_fix_agrees`: the fix of a line leaves its meaning alone
-/

namespace ItemFilter

open Text
open Cursor hiding read

/-- The fix of text in a line puts a comment sign in front of it. -/
theorem Fix.commentOut_append (before old after : Text) :
    Fix.commentOut (before ++ old ++ after) (spanOf before old) =
      ⟨⟨spanOf before old, old, ' ' :: '#' :: old⟩, commentTitle⟩ := by
  have hslice : slice? (spanOf before old).start (spanOf before old).stop (before ++ old ++ after) =
      some old := slice?_append before old after
  rw [commentOut, hslice, Option.getD_some]

namespace Rule

variable {catalog : Catalog} {rule : ArgumentRule} (keyword : Keyword) (cursor : Cursor)

/-- A rule without edits has errors without fixes only, or valid arguments with text left over. -/
theorem read_cases (hb : atBoundary cursor.rest = true)
    (hedits : (arguments catalog keyword rule cursor).1.edits = []) :
    (∀ d ∈ (read catalog keyword rule cursor).1.diagnostics, d.isError = true ∧ d.fix = none) ∨
    ∃ r tail, Phrase.Fits catalog rule cursor.rest tail r ∧
      rule.Stops r.values.length (cursor.pass r.text tail) ∧ allBlank tail = false ∧
      (trimStart tail).head? ≠ some '#' ∧
      (read catalog keyword rule cursor).1.diagnostics =
        [leftoverText cursor.text
          ⟨byteLength (cursor.consumed ++ r.text), cursor.content.stop⟩] := by
  -- Text is only reported as left over behind valid arguments, which are a phrase.
  by_cases hdone : ((arguments catalog keyword rule cursor).1.invalid ||
      (arguments catalog keyword rule cursor).2.isEmpty) = true
  · refine Or.inl ?_
    rw [read_eq, if_pos hdone]
    exact (isPlain_arguments keyword cursor catalog rule).unfixable
  · refine Or.inr ?_
    simp only [Bool.or_eq_true, not_or, Bool.not_eq_true] at hdone
    obtain ⟨r, tail, hfits, hstop⟩ := exists_phrase keyword cursor hb hdone.1 hedits
    have harguments := arguments_of_fits keyword cursor hfits hstop
    -- a comment would have been read, with nothing left over behind it
    by_cases hhead : (trimStart tail).head? = some '#'
    · obtain ⟨p, after, hp, hrest, hafter⟩ := exists_comment hfits.boundary hhead
      rw [harguments, finish_of_comment keyword (cursor.pass r.text tail) hp hafter hrest] at hdone
      exact absurd (hafter.symm.trans hdone.2) (by decide)
    · have hcomment : (cursor.pass r.text tail).isCommented = false :=
        isCommented_eq_false_iff.mpr hhead
      rw [finish_of_not_isCommented keyword (cursor.pass r.text tail) hcomment] at harguments
      rw [harguments] at hdone
      refine ⟨r, tail, hfits, hstop, hdone.2, hhead, ?_⟩
      rw [read_eq, harguments, hdone.1, hdone.2]
      simp [Outcome.report, Phrase.outcome, Cursor.text, offset, hfits.rest_eq]

end Rule

namespace Classifier

/-- Text that can be commented out: where it stands, the one problem of the line, and what is found
in the fixed line. -/
structure Leftover (c : Classifier) (line before old after : Text) (keyword : Keyword)
    (problem : Diagnostic Span) : Prop where
  /-- The line around the leftover text. -/
  line_eq : line = before ++ old ++ after
  /-- There is text to comment out. -/
  not_blank : allBlank old = false
  /-- The rest of the line is not commented out yet. -/
  not_comment : (trimStart (old ++ after)).head? ≠ some '#'
  /-- The line has a keyword. -/
  keyword_eq : (c.classify (atStart line)).kind.keyword? = some keyword
  /-- Nothing else is wrong with the line. -/
  diagnostics_eq : (c.classify (atStart line)).diagnostics = [problem]
  /-- The problem is an error where a comment would be one. -/
  isError_of_not : keyword.allowsComment = false → problem.isError = true
  /-- The fix of the problem. -/
  fix_eq : problem.fix = some ⟨⟨spanOf before old, old, ' ' :: '#' :: old⟩, commentTitle⟩
  /-- The fixed line says the same. -/
  agrees : (c.classify (atStart line)).kind.Agrees
    (c.classify (atStart (before ++ (' ' :: '#' :: old) ++ after))).kind
  /-- The rest of the line is a comment in the fixed line. -/
  commented : (c.classify (atStart (before ++ (' ' :: '#' :: old) ++ after))).EndsInComment keyword
    (before ++ [' ']) (old ++ after)

/-- Behind the keyword of a block, all text can be commented out. -/
theorem leftover_block (c : Classifier) {gap rest : Text} {keyword : Keyword}
    (hgap : allBlank gap = true) (hb : atBoundary rest = true) (hkind : keyword.kind = .block) :
    (c.classify (atStart (gap ++ keyword.name.toList ++ rest))).diagnostics = [] ∨
      ∃ problem, c.Leftover (gap ++ keyword.name.toList ++ rest) (gap ++ keyword.name.toList) rest
        [] keyword problem := by
  have hclassify := c.classify_block hkind rfl hgap hb
  by_cases hcomment : Cursor.isCommented ⟨gap ++ keyword.name.toList, rest,
      extent (gap ++ keyword.name.toList ++ rest)⟩ = true
  · refine Or.inl ?_
    obtain ⟨p, after, hp, hrest, hafter⟩ :=
      exists_comment hb (isCommented_iff.mp hcomment)
    rw [hclassify, blockLine, Rule.block_of_comment _ _ hp hafter hrest]
  by_cases hquiet : (allBlank rest || !c.warnings) = true
  · refine Or.inl ?_
    rw [hclassify, blockLine, Rule.block_of_not_isCommented _ _ (by simpa using hcomment)]
    exact congrArg (fun result : Outcome × Cursor => result.1.diagnostics) (if_pos hquiet)
  · refine Or.inr ⟨Rule.ignoredText keyword (gap ++ keyword.name.toList ++ rest)
      (spanOf (gap ++ keyword.name.toList) rest), ?_⟩
    -- In the fixed line a comment stands behind the keyword, up to the end.
    have hopen : atBoundary (' ' :: '#' :: rest) = true := rfl
    have hagrees := c.agrees_of_block hgap hkind hb hopen
    have hspace : allBlank [' '] = true := rfl
    have hcommented := c.endsInComment_of_block hgap hkind hspace (by simp) rest
    have hblank : allBlank rest = false :=
      Bool.eq_false_iff.mpr fun hblank => hquiet (by rw [hblank, Bool.true_or])
    refine ⟨(List.append_nil _).symm, hblank, ?_, c.keyword?_of_boundary hgap hb,
      ?_, ?_, ?_, ?_, ?_⟩
    · simpa [isCommented_iff] using hcomment
    · rw [hclassify, blockLine, Rule.block_of_not_isCommented _ _ (by simpa using hcomment)]
      exact congrArg (fun result : Outcome × Cursor => result.1.diagnostics) (if_neg hquiet)
    · intro hallows
      rw [Keyword.allowsComment_of_block hkind] at hallows
      exact absurd hallows (by decide)
    · have hfix := Fix.commentOut_append (gap ++ keyword.name.toList) rest []
      rw [List.append_nil] at hfix
      rw [Rule.ignoredText, hfix]
    · rwa [List.append_nil]
    · rwa [List.append_nil, List.append_nil]

/-- Behind valid arguments of a rule, all text can be commented out. -/
theorem leftover_rule (c : Classifier) {gap rest : Text} {keyword : Keyword}
    (hgap : allBlank gap = true) (hb : atBoundary rest = true) {category : Category}
    {rule : ArgumentRule} (hkind : keyword.kind = .rule category rule)
    (hedits : (c.classify (atStart (gap ++ keyword.name.toList ++ rest))).edits = []) :
    (∀ d ∈ (c.classify (atStart (gap ++ keyword.name.toList ++ rest))).diagnostics,
        d.isError = true ∧ d.fix = none) ∨
      ∃ before old after problem,
        c.Leftover (gap ++ keyword.name.toList ++ rest) before old after keyword problem := by
  have hclassify := c.classify_rule hkind rfl hgap hb
  rw [hclassify, ruleLine_eq, Rule.edits_read] at hedits
  rcases Rule.read_cases keyword ⟨gap ++ keyword.name.toList, rest,
    extent (gap ++ keyword.name.toList ++ rest)⟩ hb hedits with
    hplain | ⟨r, tail, hfits, hstops, hblank, hhead, hdiagnostics⟩
  · rw [hclassify, ruleLine_eq]
    exact Or.inl hplain
  · refine Or.inr ?_
    -- The fix leaves the white space at the end of the line alone.
    obtain ⟨after, htail, hafter⟩ := eq_trimEnd_append tail
    have hsplit : gap ++ keyword.name.toList ++ rest =
        gap ++ keyword.name.toList ++ r.text ++ tail := by
      rw [List.append_assoc _ r.text, ← hfits.rest_eq]
    have hline : gap ++ keyword.name.toList ++ rest =
        gap ++ keyword.name.toList ++ r.text ++ trimEnd tail ++ after := by
      rw [List.append_assoc _ (trimEnd tail), ← htail, hsplit]
    have hfixed : gap ++ keyword.name.toList ++ r.text ++ (' ' :: '#' :: trimEnd tail) ++ after =
        gap ++ keyword.name.toList ++ (r.text ++ ' ' :: '#' :: tail) := by
      conv_rhs => rw [htail]
      simp
    -- The same phrase is found in the fixed line, with a comment behind it.
    have hfits' := hfits.exchange (' ' :: '#' :: tail) rfl
    have hspace : allBlank [' '] = true := rfl
    have hagrees := c.agrees_of_fits hgap hkind hfits hstops hfits' (isClosed_sign hspace tail)
    have hcommented := c.endsInComment_of_fits hgap hkind hfits'
      (show ' ' :: '#' :: tail = [' '] ++ '#' :: tail from rfl) hspace
    rw [← hfixed] at hagrees hcommented
    have hstop : (extent (gap ++ keyword.name.toList ++ rest)).stop =
        byteLength (gap ++ keyword.name.toList ++ r.text ++ trimEnd tail) := by
      rw [hsplit, extent_stop_append _ hblank]
    rw [hstop] at hdiagnostics
    refine ⟨gap ++ keyword.name.toList ++ r.text, trimEnd tail, after,
      Rule.leftoverText (gap ++ keyword.name.toList ++ rest)
        (spanOf (gap ++ keyword.name.toList ++ r.text) (trimEnd tail)),
      hline, ?_, htail ▸ hhead, c.keyword?_of_boundary hgap hb, ?_, fun _ => rfl, ?_, hagrees,
      htail ▸ hcommented⟩
    · rw [htail, allBlank_append, hafter, Bool.and_true] at hblank
      exact hblank
    · rw [hclassify, ruleLine_eq]
      exact hdiagnostics
    · rw [hline, Rule.leftoverText, Fix.commentOut_append]

/-- Every line that is not edited has errors without fixes only, or leftover text. -/
theorem leftover_cases (c : Classifier) (line : Text)
    (hedits : (c.classify (atStart line)).edits = []) :
    (∀ d ∈ (c.classify (atStart line)).diagnostics, d.isError = true ∧ d.fix = none) ∨
      ∃ before old after keyword problem, c.Leftover line before old after keyword problem := by
  rcases c.classify_cases line with ⟨gap, keyword, rest, hgap, hb, rfl⟩ | ⟨-, -, hplain⟩
  · cases hkind : keyword.kind with
    | block =>
      rcases c.leftover_block hgap hb hkind with hnil | ⟨problem, h⟩
      · rw [hnil]
        exact Or.inl nofun
      · exact Or.inr ⟨_, _, _, _, _, h⟩
    | rule category rule =>
      rcases c.leftover_rule hgap hb hkind hedits with hplain | ⟨before, old, after, problem, h⟩
      · exact Or.inl hplain
      · exact Or.inr ⟨_, _, _, _, _, h⟩
  · exact Or.inl hplain

namespace Leftover

variable {c : Classifier} {line before old after : Text} {keyword : Keyword}
  {problem : Diagnostic Span}

/-- The fixed line is not edited while it is read. -/
theorem edits_fixed (h : c.Leftover line before old after keyword problem) :
    (c.classify (atStart (before ++ (' ' :: '#' :: old) ++ after))).edits = [] :=
  h.commented.edits_eq

/-- The fixed line has no problem, or the comment is one. -/
theorem diagnostics_fixed (h : c.Leftover line before old after keyword problem) : ∃ span,
    (c.classify (atStart (before ++ (' ' :: '#' :: old) ++ after))).diagnostics =
      if keyword.allowsComment then [] else [Outcome.badComment keyword span] :=
  ⟨_, h.commented.diagnostics_eq⟩

/-- The line with the text commented out has no line breaks either. -/
theorem unbroken_fixed (h : c.Leftover line before old after keyword problem)
    (hline : Unbroken line) : Unbroken (before ++ (' ' :: '#' :: old) ++ after) := by
  rw [h.line_eq] at hline
  simp only [unbroken_append] at hline ⊢
  refine ⟨⟨hline.1.1, fun x hx => ?_⟩, hline.2⟩
  rcases List.mem_cons.mp hx with rfl | hx
  · decide
  · rcases List.mem_cons.mp hx with rfl | hx
    · decide
    · exact hline.1.2 x hx

/-- The one fix of the line. -/
theorem fixes_eq (h : c.Leftover line before old after keyword problem) :
    (c.classify (atStart line)).fixes =
      [⟨⟨spanOf before old, old, ' ' :: '#' :: old⟩, commentTitle⟩] := by
  simp [LineResult.fixes, h.diagnostics_eq, h.fix_eq]

/-- The fix can be made. -/
theorem editLine_fixed (h : c.Leftover line before old after keyword problem) (n : Nat) :
    Document.editLine line
        ((c.classify (atStart line)).fixes.map fun fix => (fix.map (Range.on n)).edit) =
      (.ok (), before ++ (' ' :: '#' :: old) ++ after) := by
  rw [h.fixes_eq, h.line_eq]
  exact Document.editLine_append n before old _ after []

/-- The fixed line is valid if the line was, or if the comment is allowed. -/
theorem invalid_fixed_iff (h : c.Leftover line before old after keyword problem) :
    (c.classify (atStart (before ++ (' ' :: '#' :: old) ++ after))).invalid = false ↔
      (c.classify (atStart line)).invalid = false ∨ keyword.allowsComment = true := by
  obtain ⟨span, hdiagnostics⟩ := h.diagnostics_fixed
  rw [LineResult.invalid, hdiagnostics, LineResult.invalid, h.diagnostics_eq]
  cases hallows : keyword.allowsComment with
  | true => exact iff_of_true rfl (Or.inr rfl)
  | false =>
    have herror := h.isError_of_not hallows
    refine iff_of_false ?_ ?_
    · simp [Outcome.badComment, Diagnostic.isError]
    · simp [herror]

/-- An error of the fixed line is the comment. -/
theorem diagnostics_of_invalid (h : c.Leftover line before old after keyword problem)
    (hinvalid :
      (c.classify (atStart (before ++ (' ' :: '#' :: old) ++ after))).invalid = true) :
    ∃ span, (c.classify (atStart (before ++ (' ' :: '#' :: old) ++ after))).diagnostics =
      [Outcome.badComment keyword span] := by
  obtain ⟨span, hdiagnostics⟩ := h.diagnostics_fixed
  rw [LineResult.invalid, hdiagnostics] at hinvalid
  cases hallows : keyword.allowsComment with
  | true => simp [hallows] at hinvalid
  | false =>
    rw [hallows] at hdiagnostics
    exact ⟨span, hdiagnostics⟩

end Leftover

/-- A line whose errors all have fixes, and that is settled otherwise, has no problem at all. -/
theorem diagnostics_eq_nil (c : Classifier) (location : Location) {line : Text}
    (hfixes : ∀ d ∈ ((c.classify (atStart line)).place location).errors, d.fix.isSome = true)
    (hplain : ∀ d ∈ (c.classify (atStart line)).diagnostics, d.isError = true ∧ d.fix = none) :
    (c.classify (atStart line)).diagnostics = [] := by
  refine List.eq_nil_iff_forall_not_mem.mpr fun d hd => ?_
  obtain ⟨herror, hnone⟩ := hplain d hd
  have hsome := hfixes (d.map (Range.on location.line) location.file) (by
    rw [LineResult.errors_place]
    exact List.mem_map_of_mem (List.mem_filter.mpr ⟨hd, herror⟩))
  simp [Diagnostic.map, hnone] at hsome

/-- What the edits and fixes of a line come to. -/
theorem parse_fixed (c : Classifier) (location : Location) {line : Text}
    (hline : ∀ x ∈ line, breaksLine x = false) {result : LineResult Range}
    (hparse : c.parse location line = .ok result)
    (hfixes : ∀ d ∈ result.errors, d.fix.isSome = true) :
    ∃ fixed again,
      Document.editLine line (result.edits ++ result.fixes.map Fix.edit) = (.ok (), fixed) ∧
      c.parse location fixed = .ok again ∧
      (again.invalid = false ↔ result.invalid = false ∨
        ∃ keyword, result.kind.keyword? = some keyword ∧ keyword.allowsComment = true) ∧
      (again.invalid = true → ∃ keyword span, result.kind.keyword? = some keyword ∧
        again.diagnostics =
          [(Outcome.badComment keyword span).map (Range.on location.line) location.file]) := by
  rw [c.parse_of_unbroken location hline] at hparse
  obtain rfl := Except.ok.inj hparse
  -- The edits come first, and what is left over is commented out in the edited line.
  obtain ⟨edited, hedited⟩ := c.exists_edited hline
  have hedits := hedited.editLine_eq location.line
  have hclassify := hedited.classify_eq
  rcases c.leftover_cases edited (by rw [hclassify]; rfl) with
    hplain | ⟨before, old, after, keyword, problem, h⟩
  · rw [hclassify] at hplain
    have hnil := c.diagnostics_eq_nil location hfixes hplain
    have hvalid : (c.classify (atStart line)).invalid = false := by
      rw [LineResult.invalid, hnil]
      rfl
    refine ⟨edited, _, ?_, c.parse_of_unbroken location hedited.unbroken, ?_, ?_⟩
    · rw [LineResult.fixes_place, LineResult.fixes, hnil]
      simpa using hedits
    · simp [hclassify, hvalid]
    · simp [hclassify, hvalid]
  · have hkeyword : (c.classify (atStart line)).kind.keyword? = some keyword := by
      rw [← h.keyword_eq, hclassify]
      rfl
    refine ⟨_, _, ?_, c.parse_of_unbroken location (h.unbroken_fixed hedited.unbroken), ?_, ?_⟩
    · have hfixed := h.editLine_fixed location.line
      rw [hclassify] at hfixed
      rw [LineResult.edits_place, Document.editLine_append_of_ok hedits, LineResult.fixes_place,
        List.map_map]
      exact hfixed
    · rw [LineResult.invalid_place, LineResult.invalid_place, LineResult.keyword?_place, hkeyword,
        h.invalid_fixed_iff, hclassify, LineResult.invalid_withoutEdits]
      simp
    · intro hinvalid
      rw [LineResult.invalid_place] at hinvalid
      obtain ⟨span, hdiagnostics⟩ := h.diagnostics_of_invalid hinvalid
      refine ⟨keyword, span, by rw [LineResult.keyword?_place, hkeyword], ?_⟩
      rw [LineResult.diagnostics_place, hdiagnostics]
      rfl

/-- A colour with text behind it is repaired. -/
theorem parse_fixed_color :
    ∃ result, parse ⟨{}, true⟩ {} "SetTextColor 1 2 3 extra".toList = .ok result ∧
      (∀ d ∈ result.errors, d.fix.isSome = true) ∧ result.invalid = true ∧
      ∃ fixed again,
        Document.editLine "SetTextColor 1 2 3 extra".toList
          (result.edits ++ result.fixes.map Fix.edit) = (.ok (), fixed) ∧
        parse ⟨{}, true⟩ {} fixed = .ok again ∧
        (again.invalid = false ↔ result.invalid = false ∨
          ∃ keyword, result.kind.keyword? = some keyword ∧ keyword.allowsComment = true) ∧
        (again.invalid = true → ∃ keyword span, result.kind.keyword? = some keyword ∧
          again.diagnostics = [(Outcome.badComment keyword span).map (Range.on 0) none]) :=
  ⟨_, rfl, by decide, rfl,
    parse_fixed ⟨{}, true⟩ {} (unbroken_iff.mpr (by decide)) rfl (by decide)⟩

/-- A rule that allows no comment is not repaired by commenting text out behind it. -/
theorem exists_unrepaired :
    ∃ result again fixed, parse ⟨{}, true⟩ {} "ItemLevel 5 extra".toList = .ok result ∧
      (∀ d ∈ result.errors, d.fix.isSome = true) ∧
      Document.editLine "ItemLevel 5 extra".toList (result.edits ++ result.fixes.map Fix.edit) =
        (.ok (), fixed) ∧
      parse ⟨{}, true⟩ {} fixed = .ok again ∧ again.invalid = true :=
  ⟨_, _, _, rfl, by decide, rfl, rfl, by decide⟩

/-- A fix of a line that is not edited comments leftover text out. -/
theorem exists_leftover_of_mem_fixes (c : Classifier) {line : Text}
    (hedits : (c.classify (atStart line)).edits = []) (n : Nat) {fix : Fix Range}
    (hfix : fix ∈ (c.classify (atStart line)).fixes.map (Fix.map (Range.on n))) :
    ∃ before old after keyword problem, c.Leftover line before old after keyword problem ∧
      fix = ⟨⟨Range.on n (spanOf before old), old, ' ' :: '#' :: old⟩, commentTitle⟩ := by
  rcases c.leftover_cases line hedits with hplain | ⟨before, old, after, keyword, problem, h⟩
  · rw [LineResult.fixes_eq_nil hplain] at hfix
    cases hfix
  · rw [h.fixes_eq] at hfix
    exact ⟨before, old, after, keyword, problem, h, List.mem_singleton.mp hfix⟩

/-- The fix of a line goes into the edited line, and puts a comment sign in front of some of it.
The line keeps its meaning: the same block, or the same rule with the same operator and values, all
where they were. All that stands behind the sign is in the comment. -/
theorem parse_fix_agrees (c : Classifier) (location : Location) {line : Text}
    {result : LineResult Range} {fix : Fix Range} (hparse : c.parse location line = .ok result)
    (hfix : fix ∈ result.fixes) :
    ∃ before rest keyword again,
      Document.editLine line result.edits = (.ok (), before ++ rest) ∧
      fix.edit.range.line = location.line ∧ fix.edit.range.start = byteLength before ∧
      Document.editLine (before ++ rest) [fix.edit] = (.ok (), before ++ ' ' :: '#' :: rest) ∧
      c.parse location (before ++ ' ' :: '#' :: rest) = .ok again ∧
      result.kind.Agrees again.kind ∧ again.kind.keyword? = some keyword ∧
      again.kind.comment? =
        (if keyword.allowsComment then
          some ⟨trim rest,
            Range.on location.line (spanOf (before ++ [' ']) (trimEnd ('#' :: rest)))⟩
        else none) ∧
      again.diagnostics =
        (if keyword.allowsComment then []
        else [(Outcome.badComment keyword (spanOf (before ++ [' ']) ('#' :: rest))).map
          (Range.on location.line) location.file]) := by
  have hline := unbroken_of_parse hparse
  rw [c.parse_of_unbroken location hline] at hparse
  obtain rfl := Except.ok.inj hparse
  -- The edited line has the fix, and what is left over is commented out there.
  obtain ⟨edited, hedited⟩ := c.exists_edited hline
  rw [LineResult.fixes_place, ← hedited.fixes_eq] at hfix
  obtain ⟨before, old, after, keyword, problem, h, rfl⟩ :=
    c.exists_leftover_of_mem_fixes hedited.edits_eq location.line hfix
  have hsplit : edited = before ++ (old ++ after) := by rw [h.line_eq, List.append_assoc]
  have hfixed : before ++ (' ' :: '#' :: old) ++ after =
      before ++ ' ' :: '#' :: (old ++ after) := by simp
  have hedits := hedited.editLine_eq location.line
  have hedit := h.editLine_fixed location.line
  have hunbroken := h.unbroken_fixed hedited.unbroken
  have hagrees := h.agrees
  have hcommented := h.commented
  rw [h.fixes_eq, hfixed, hsplit] at hedit
  rw [hfixed] at hunbroken hagrees hcommented
  rw [hedited.classify_eq] at hagrees
  rw [hsplit] at hedits
  refine ⟨before, old ++ after, keyword, _, hedits, rfl, rfl, hedit,
    c.parse_of_unbroken location hunbroken, hagrees.map _, ?_, ?_, ?_⟩
  · rw [LineResult.keyword?_place, hcommented.keyword_eq]
  · rw [LineResult.comment?_place, hcommented.comment_eq]
    split <;> rfl
  · rw [LineResult.diagnostics_place, hcommented.diagnostics_eq]
    split <;> rfl

/-- A colour that is expanded keeps its channels when the text behind it is commented out. -/
theorem parse_fix_agrees_hex :
    ∃ result fix, parse ⟨{}, true⟩ {} "SetTextColor #ff000a x y".toList = .ok result ∧
      fix ∈ result.fixes ∧ result.edits.length = 1 ∧
      ∃ before rest again,
        Document.editLine "SetTextColor #ff000a x y".toList result.edits =
          (.ok (), before ++ rest) ∧
        Document.editLine (before ++ rest) [fix.edit] = (.ok (), before ++ ' ' :: '#' :: rest) ∧
        parse ⟨{}, true⟩ {} (before ++ ' ' :: '#' :: rest) = .ok again ∧
        result.kind.Agrees again.kind := by
  obtain ⟨result, fix, hparse, hfix, hedits⟩ : ∃ result fix,
      parse ⟨{}, true⟩ {} "SetTextColor #ff000a x y".toList = .ok result ∧ fix ∈ result.fixes ∧
      result.edits.length = 1 := ⟨_, _, rfl, List.mem_cons_self .., rfl⟩
  obtain ⟨before, rest, keyword, again, hedited, -, -, hfixed, hagain, hagrees, -⟩ :=
    parse_fix_agrees ⟨{}, true⟩ {} hparse hfix
  exact ⟨result, fix, hparse, hfix, hedits, before, rest, again, hedited, hfixed, hagain, hagrees⟩

end Classifier

end ItemFilter
