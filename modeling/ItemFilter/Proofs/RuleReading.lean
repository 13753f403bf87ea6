import ItemFilter.Proofs.Phrase

/-!
# Reading the arguments of a rule

The functions that read a rule are compared with the phrases it admits, in both directions:
arguments without errors are a phrase the rule admits, and such a phrase is read back from any
line in which nothing but a comment follows it. A hexadecimal colour is no phrase before it was
expanded, which is why the first direction asks for arguments without edits.

## Main results

* `Rule.exists_phrase`: arguments without errors are a phrase
* `Rule.arguments_of_fits`: a phrase is read back
* `Rule.read_of_comment`, `Rule.read_of_not_isCommented`: what follows the arguments of a rule
* `Rule.read_valid_iff`: a line is valid if it is a phrase and an end
-/

namespace ItemFilter

open Text
open Cursor hiding read

/-! ## The rules one by one -/

namespace Rule

variable {catalog : Catalog} {tail : Text} {r : Phrase} (keyword : Keyword) (cursor : Cursor)

theorem range_of_fits {bounds : Bounds} {allowed : Bool}
    (h : r.Fits catalog (.range bounds allowed) cursor.rest tail) :
    range keyword bounds allowed cursor =
      Outcome.rejectComment keyword (r.outcome cursor.consumed) (cursor.pass r.text tail) := by
  obtain ⟨hallowed, n, hvalues, hbounds⟩ := h.admitted
  obtain ⟨token, next, hoperator, hnumber, rfl, houtcome⟩ :=
    read_of_fits matchNumber_reads Spelling.number_makesValues h hvalues
  rw [← r.map_operator_outcome cursor.consumed] at hallowed
  rw [houtcome]
  -- An operator is kept if one is allowed, and there is none otherwise.
  cases hop : (r.outcome cursor.consumed).operator with
  | none => simp [range, hoperator, hop, Cursor.number, hnumber, hbounds, Outcome.accept]
  | some op =>
    have htrue : allowed = true := hallowed.resolve_left (by simp [hop])
    simp [range, hoperator, hop, htrue, Cursor.number, hnumber, hbounds, Outcome.accept]

theorem exists_fits_range {bounds : Bounds} {allowed : Bool} (hb : atBoundary cursor.rest = true)
    (hvalid : (range keyword bounds allowed cursor).1.invalid = false) :
    ∃ r tail, Phrase.Fits catalog (.range bounds allowed) cursor.rest tail r := by
  rcases hoperator : cursor.operator with ⟨operator, next⟩
  rcases hnumber : next.number with ⟨_ | n, last⟩
  · simp [range, hoperator, hnumber, Outcome.badFormat, Diagnostic.isError] at hvalid
  · refine exists_fits_of_read matchNumber_reads Spelling.number_makesValues hb hoperator hnumber
      ⟨?_, n.value, rfl, ?_⟩
    -- a needless operator is reported, whether or not the number is within the bounds
    · by_contra hbad
      simp only [not_or, Bool.not_eq_true, Option.map_eq_none_iff] at hbad
      obtain ⟨op, rfl⟩ := Option.ne_none_iff_exists'.mp hbad.1
      cases hbounds : bounds.contains n.value <;>
        simp [range, hoperator, hnumber, hbounds, hbad.2, needlessOperator,
          Diagnostic.isError] at hvalid
    · by_contra hbounds
      simp [range, hoperator, hnumber, hbounds, outOfBounds, Diagnostic.isError] at hvalid

theorem exists_fits_operatorNumber {allowed : List Int} (hb : atBoundary cursor.rest = true)
    (hvalid : (operatorNumber keyword allowed cursor).1.invalid = false) :
    ∃ r tail, Phrase.Fits catalog (.operatorNumber allowed) cursor.rest tail r := by
  rcases hoperator : cursor.operator with ⟨operator, next⟩
  rcases hnumber : next.number with ⟨_ | n, last⟩
  · simp [operatorNumber, hoperator, hnumber, Outcome.badFormat, Diagnostic.isError] at hvalid
  · refine exists_fits_of_read matchNumber_reads Spelling.number_makesValues hb hoperator hnumber
      ⟨n.value, rfl, ?_⟩
    by_contra hallowed
    simp [operatorNumber, hoperator, hnumber, hallowed, Outcome.badValue,
      Diagnostic.isError] at hvalid

theorem exists_fits_boolean (hb : atBoundary cursor.rest = true)
    (hvalid : (boolean keyword cursor).1.invalid = false) :
    ∃ r tail, Phrase.Fits catalog .boolean cursor.rest tail r := by
  rcases hoperator : cursor.operator with ⟨operator, next⟩
  have heq := isEquality_of_withEquality hoperator hvalid
  rw [boolean, withEquality_of_isEquality hoperator heq] at hvalid
  rcases hboolean : next.boolean with ⟨_ | b, last⟩
  · simp [hboolean, Outcome.badFormat, Diagnostic.isError] at hvalid
  · exact exists_fits_of_read matchBoolean_reads Spelling.boolean_makesValues hb hoperator hboolean
      ⟨heq, b.value, rfl⟩

theorem exists_fits_oneOf {allowed : List String} (hb : atBoundary cursor.rest = true)
    (hvalid : (oneOf keyword allowed cursor).1.invalid = false) :
    ∃ r tail, Phrase.Fits catalog (.oneOf allowed) cursor.rest tail r := by
  rcases hoperator : cursor.operator with ⟨operator, next⟩
  rcases hword : argument next with ⟨_ | word, last⟩
  · simp [oneOf, hoperator, hword, Outcome.badFormat, Diagnostic.isError] at hvalid
  · refine exists_fits_of_read matchArgument_reads Spelling.argument_makesValues hb hoperator
      (by rw [← argument_eq_read, hword]) ⟨word.value, rfl, ?_⟩
    by_contra hallowed
    simp [oneOf, hoperator, hword, hallowed, wrongWord, Diagnostic.isError] at hvalid

theorem exists_fits_socketGroup (hb : atBoundary cursor.rest = true)
    (hvalid : (socketGroup keyword cursor).1.invalid = false) :
    ∃ r tail, Phrase.Fits catalog .socketGroup cursor.rest tail r := by
  rcases hoperator : cursor.operator with ⟨operator, next⟩
  have heq := isEquality_of_withEquality hoperator hvalid
  rw [socketGroup, withEquality_of_isEquality hoperator heq] at hvalid
  rcases hword : argument next with ⟨_ | word, last⟩
  · simp [hword, Outcome.badFormat, Diagnostic.isError] at hvalid
  · refine exists_fits_of_read matchArgument_reads Spelling.argument_makesValues hb hoperator
      (by rw [← argument_eq_read, hword]) ⟨heq, word.value, rfl, ?_⟩
    by_contra hgroup
    simp [hword, hgroup, wrongWord, Diagnostic.isError] at hvalid

theorem operatorNumber_of_fits {allowed : List Int}
    (h : r.Fits catalog (.operatorNumber allowed) cursor.rest tail) :
    operatorNumber keyword allowed cursor =
      Outcome.rejectComment keyword (r.outcome cursor.consumed) (cursor.pass r.text tail) := by
  obtain ⟨n, hvalues, hallowed⟩ := h.admitted
  obtain ⟨token, next, hoperator, hnumber, rfl, houtcome⟩ :=
    read_of_fits matchNumber_reads Spelling.number_makesValues h hvalues
  rw [houtcome]
  simp [operatorNumber, hoperator, Cursor.number, hnumber, hallowed, Outcome.accept]

theorem boolean_of_fits (h : r.Fits catalog .boolean cursor.rest tail) :
    boolean keyword cursor =
      Outcome.rejectComment keyword (r.outcome cursor.consumed) (cursor.pass r.text tail) := by
  obtain ⟨heq, b, hvalues⟩ := h.admitted
  obtain ⟨token, next, hoperator, hboolean, rfl, houtcome⟩ :=
    read_of_fits matchBoolean_reads Spelling.boolean_makesValues h hvalues
  rw [← r.map_operator_outcome cursor.consumed] at heq
  rw [houtcome, boolean, withEquality_of_isEquality hoperator heq]
  simp [Cursor.boolean, hboolean, Outcome.accept]

theorem oneOf_of_fits {allowed : List String}
    (h : r.Fits catalog (.oneOf allowed) cursor.rest tail) :
    oneOf keyword allowed cursor =
      Outcome.rejectComment keyword (r.outcome cursor.consumed) (cursor.pass r.text tail) := by
  obtain ⟨word, hvalues, hallowed⟩ := h.admitted
  obtain ⟨token, next, hoperator, hword, rfl, houtcome⟩ :=
    read_of_fits matchArgument_reads Spelling.argument_makesValues h hvalues
  rw [houtcome]
  simp [oneOf, hoperator, argument_eq_read, hword, hallowed, Outcome.accept]

theorem socketGroup_of_fits (h : r.Fits catalog .socketGroup cursor.rest tail) :
    socketGroup keyword cursor =
      Outcome.rejectComment keyword (r.outcome cursor.consumed) (cursor.pass r.text tail) := by
  obtain ⟨heq, word, hvalues, hgroup⟩ := h.admitted
  obtain ⟨token, next, hoperator, hword, rfl, houtcome⟩ :=
    read_of_fits matchArgument_reads Spelling.argument_makesValues h hvalues
  rw [← r.map_operator_outcome cursor.consumed] at heq
  rw [houtcome, socketGroup, withEquality_of_isEquality hoperator heq]
  simp [argument_eq_read, hword, hgroup, Outcome.accept]

/-! ## Rules with several values -/

/-- The operator of a phrase is read from the line. -/
theorem operator_of_fits {rule : ArgumentRule} (h : r.Fits catalog rule cursor.rest tail)
    (hne : r.values ≠ []) :
    cursor.operator = ((r.outcome cursor.consumed).operator,
      cursor.pass r.lead (Segment.texts r.values ++ tail)) := by
  obtain ⟨p, ps, hps⟩ := List.exists_cons_of_ne_nil hne
  have hp : p.IsOf Spelling.value := h.values p (by simp [hps])
  have hrest : cursor.rest =
      Segment.texts r.operator.toList ++ (p.text ++ (Segment.texts ps ++ tail)) := by
    rw [h.rest_eq, Phrase.text, Phrase.lead, hps, Segment.texts_cons]
    simp
  have hoperator := operator_of_segments h.operator Spelling.operator_apart_value hp
    (Spelling.value_flush hp.spelled) hrest
  simpa [hps, Phrase.outcome, Phrase.lead] using hoperator

/-- The numbers of a phrase are read from the line. -/
theorem numbers_of_fits {rule : ArgumentRule} (h : r.Fits catalog rule cursor.rest tail)
    {values : List Int} (hvalues : r.values.map Segment.value = values.map .number) {k : Nat}
    (hk : values.length ≤ k)
    (hstop : (cursor.pass r.text tail).numbers (k - r.values.length) =
      ([], cursor.pass r.text tail)) :
    ∃ tokens : List (Token Int), (cursor.pass r.lead (Segment.texts r.values ++ tail)).numbers k =
        (tokens, cursor.pass r.text tail) ∧ tokens.map Located.value = values ∧
      r.outcome cursor.consumed =
        { operator := (r.outcome cursor.consumed).operator,
          values := tokens.map (Located.map .number) } := by
  obtain ⟨ps, hps, rfl, hspelled, -⟩ :=
    exists_segments_of_fits Spelling.number_makesValues h hvalues
  rw [List.length_map] at hk
  refine ⟨Segment.tokens (cursor.consumed ++ r.lead) ps, ?_, Segment.map_value_tokens .., ?_⟩
  -- Reading the row and then as many numbers as are still allowed is reading all of them.
  · have happend := numbers_append hspelled h.boundary (k - ps.length)
      (cursor.pass r.lead (Segment.texts r.values ++ tail)) (by simp [hps])
    have htext : r.lead ++ Segment.texts ps = r.text := by simp [Phrase.text, hps]
    rw [hps, List.length_map] at hstop
    rwa [Nat.add_sub_cancel' hk, pass_pass, htext, hstop, List.append_nil] at happend
  · simp [Phrase.outcome, hps]

theorem alertSound_of_fits (h : r.Fits catalog .alertSound cursor.rest tail)
    (hstop : ArgumentRule.alertSound.Stops r.values.length (cursor.pass r.text tail)) :
    alertSound keyword cursor =
      Outcome.captureComment (r.outcome cursor.consumed) (cursor.pass r.text tail) := by
  obtain ⟨heq, values, hvalues, hne, htwo, hbounds⟩ := h.admitted
  obtain ⟨tokens, hnumbers, rfl, houtcome⟩ := numbers_of_fits cursor h hvalues htwo hstop
  have hoperator := operator_of_fits cursor h fun hnil => hne (by simpa [hnil] using hvalues)
  rw [← r.map_operator_outcome cursor.consumed] at heq
  have hvalid : ∀ n ∈ tokens.zip [soundBounds, volumeBounds], n.2.contains n.1.value = true := by
    rw [List.zip_map_left] at hbounds
    exact fun n hn => hbounds _ (List.mem_map_of_mem hn)
  -- Two bounds are enough for the numbers there are.
  have hfst : (tokens.zip [soundBounds, volumeBounds]).map (fun n => n.1.map Value.number) =
      tokens.map (Located.map .number) := by
    have hzip : (tokens.zip [soundBounds, volumeBounds]).map Prod.fst = tokens :=
      List.map_fst_zip (by simpa using htwo)
    conv_rhs => rw [← hzip, List.map_map]
    rfl
  obtain ⟨n, tokens, rfl⟩ := List.exists_cons_of_ne_nil (l := tokens) (by simpa using hne)
  rw [houtcome, alertSound, withEquality_of_isEquality hoperator heq, hnumbers]
  dsimp only
  rw [checkNumbers_eq, if_pos hvalid, hfst]
  rfl

/-- What becomes of a colour from its channels on. -/
def colorFrom (operator : Option (Token Operator)) (edits : List (TextEdit Span))
    (start : Cursor) : Outcome × Cursor :=
  if (start.numbers 4).1.length < 3 then
    (Outcome.report { operator, edits }
      (Outcome.badFormat keyword "<Red> <Green> <Blue> [Alpha]" .actions (start.numbers 4).2),
      (start.numbers 4).2)
  else
    Outcome.captureComment (checkNumbers keyword { operator, edits }
      ((start.numbers 4).1.map fun n => (n, channelBounds))) (start.numbers 4).2

@[simp] theorem edits_colorFrom (operator : Option (Token Operator)) (edits : List (TextEdit Span))
    (start : Cursor) : (colorFrom keyword operator edits start).1.edits = edits := by
  rw [colorFrom, apply_ite Prod.fst, apply_ite Outcome.edits]
  simp

variable {cursor} in
/-- A colour behind `=`, or no operator at all. -/
theorem color_eq {operator : Option (Token Operator)} {next start : Cursor}
    {edits : List (TextEdit Span)} (hoperator : cursor.operator = (operator, next))
    (heq : IsEquality (operator.map Located.value)) (hexpand : expandHex next = (edits, start)) :
    color keyword cursor = colorFrom keyword operator edits start := by
  rw [color, withEquality_of_isEquality hoperator heq, hexpand]
  rfl

theorem color_of_fits (h : r.Fits catalog .color cursor.rest tail)
    (hstop : ArgumentRule.color.Stops r.values.length (cursor.pass r.text tail)) :
    color keyword cursor =
      Outcome.captureComment (r.outcome cursor.consumed) (cursor.pass r.text tail) := by
  obtain ⟨heq, values, hvalues, hthree, hfour, hbounds⟩ := h.admitted
  obtain ⟨tokens, hnumbers, rfl, houtcome⟩ := numbers_of_fits cursor h hvalues hfour hstop
  obtain ⟨ps, hps, hmap, hspelled, -⟩ :=
    exists_segments_of_fits Spelling.number_makesValues h hvalues
  -- The first channel stands where a colour to be expanded would.
  obtain ⟨p, ps, rfl⟩ : ∃ p qs, ps = p :: qs := by
    refine List.exists_cons_of_ne_nil fun hnil => ?_
    rw [← hmap, hnil] at hthree
    simp at hthree
  have hp := hspelled p (List.mem_cons_self ..)
  have hoperator := operator_of_fits cursor h (by simp [hps])
  have hrest : (cursor.pass r.lead (Segment.texts r.values ++ tail)).rest =
      p.text ++ (Segment.texts ps ++ tail) := by
    simp [hps]
  rw [← r.map_operator_outcome cursor.consumed] at heq
  have hvalid : ∀ n ∈ tokens.map fun n => (n, channelBounds), n.2.contains n.1.value = true := by
    simpa using hbounds
  rw [houtcome, color_eq keyword hoperator heq (expandHex_of_number hp hrest), colorFrom, hnumbers,
    if_neg (by simpa using hthree), checkNumbers_eq, if_pos hvalid, List.map_map]
  rfl

theorem catalogList_of_fits {names : NameKind}
    (h : r.Fits catalog (.catalogList names) cursor.rest tail)
    (hstop : (ArgumentRule.catalogList names).Stops r.values.length (cursor.pass r.text tail)) :
    catalogList keyword (catalog.names names) cursor =
      Outcome.rejectComment keyword (r.outcome cursor.consumed) (cursor.pass r.text tail) := by
  obtain ⟨heq, words, hvalues, hne, hknown⟩ := h.admitted
  obtain ⟨ps, hps, rfl, hspelled, -⟩ :=
    exists_segments_of_fits Spelling.argument_makesValues h hvalues
  have hoperator := operator_of_fits cursor h fun hnil => hne (by simpa [hnil] using hvalues)
  have hwords : (cursor.pass r.lead (Segment.texts r.values ++ tail)).arguments =
      (Segment.tokens (cursor.consumed ++ r.lead) ps, cursor.pass r.text tail) := by
    have happend := arguments_append hspelled h.boundary
      (cursor.pass r.lead (Segment.texts r.values ++ tail)) (by simp [hps])
    have htext : r.lead ++ Segment.texts ps = r.text := by simp [Phrase.text, hps]
    rwa [pass_pass, htext, hstop, List.append_nil] at happend
  rw [← r.map_operator_outcome cursor.consumed] at heq
  -- No argument is filtered out for being unknown.
  have hall : ∀ word ∈ Segment.tokens (cursor.consumed ++ r.lead) ps,
      isKnownName (catalog.names names) word.value = true := fun word hword =>
    hknown word.value (by
      rw [← Segment.map_value_tokens (cursor.consumed ++ r.lead)]
      exact List.mem_map_of_mem hword)
  have hempty : (Segment.tokens (cursor.consumed ++ r.lead) ps).isEmpty = false := by
    cases ps with
    | nil => exact absurd rfl hne
    | cons p ps => rfl
  rw [catalogList, withEquality_of_isEquality hoperator heq, hwords]
  dsimp only
  rw [List.partition_eq_filter_filter, List.filter_eq_self.mpr hall,
    List.filter_eq_nil_iff.mpr (by simpa using hall), hempty]
  simp [Phrase.outcome, hps]

/-- An operator and numbers that were read are a phrase, if the rule admits them. -/
theorem exists_fits_of_numbers {rule : ArgumentRule} {op : Option (Segment Operator)}
    (hop : ∀ p ∈ op, p.IsOf Spelling.operator) (ps : List (Segment Int))
    (hps : ∀ p ∈ ps, p.IsOf Spelling.number) {after : Text}
    (hrest : cursor.rest = Segment.texts op.toList ++ (Segment.texts ps ++ after))
    (hb : atBoundary after = true) {k : Nat} (hk : ps.length ≤ k) {tokens : List (Token Int)}
    {last : Cursor}
    (hnumbers : (cursor.pass (Segment.texts op.toList) (Segment.texts ps ++ after)).numbers k =
      (tokens, last))
    (hadmits : tokens.length ≤ k → rule.Admits catalog (op.map Segment.value)
      ((tokens.map Located.value).map .number)) :
    ∃ qs tail, (∀ q ∈ qs, Segment.IsOf Spelling.number q) ∧ after = Segment.texts qs ++ tail ∧
      Phrase.Fits catalog rule cursor.rest tail ⟨op, (ps ++ qs).map (Segment.map .number)⟩ ∧
      (cursor.pass (Segment.texts op.toList ++ Segment.texts (ps ++ qs)) tail).numbers
          (k - (ps ++ qs).length) =
        ([], cursor.pass (Segment.texts op.toList ++ Segment.texts (ps ++ qs)) tail) := by
  obtain ⟨qs, tail, hqs, hlen, htail, hafter, hrow⟩ := exists_segments_behind hps hb hk
    (cursor.pass (Segment.texts op.toList) (Segment.texts ps ++ after)) rfl
  have hall : ∀ p ∈ ps ++ qs, p.IsOf Spelling.number := List.forall_mem_append.mpr ⟨hps, hqs⟩
  have hrest' : Segment.texts ps ++ after = Segment.texts (ps ++ qs) ++ tail := by
    rw [hafter, Segment.texts_append, List.append_assoc]
  -- Whatever follows the numbers is no further one, unless there are enough.
  have hbehind := numbers_behind hall (by simpa using hlen) htail hrest' hrow
  obtain ⟨rfl, rfl⟩ := Prod.mk.inj (hnumbers.symm.trans hrow)
  rw [Segment.map_value_tokens, Segment.length_tokens, List.length_append] at hadmits
  rw [pass_pass] at hbehind
  exact ⟨qs, tail, hqs, hafter, fits_of_segments Spelling.number_makesValues hop hall
    (hadmits hlen) hrest hrest' htail, hbehind⟩

theorem exists_fits_alertSound (hb : atBoundary cursor.rest = true)
    (hvalid : (alertSound keyword cursor).1.invalid = false) :
    ∃ r tail, Phrase.Fits catalog .alertSound cursor.rest tail r ∧
      ArgumentRule.alertSound.Stops r.values.length (cursor.pass r.text tail) := by
  obtain ⟨op, after, hop, hrest, hafter, hoperator⟩ := exists_segments_of_operator hb
  have heq := isEquality_of_withEquality hoperator hvalid
  rw [alertSound, withEquality_of_isEquality hoperator heq] at hvalid
  rw [Segment.map_value_token] at heq
  rcases hnumbers : (cursor.pass (Segment.texts op.toList) after).numbers 2 with
    ⟨_ | ⟨n, tokens⟩, last⟩
  · simp [hnumbers, Outcome.badFormat, Diagnostic.isError] at hvalid
  · rw [hnumbers] at hvalid
    dsimp only at hvalid
    rw [Outcome.invalid_captureComment, invalid_checkNumbers keyword rfl] at hvalid
    have hadmits : (n :: tokens).length ≤ 2 → ArgumentRule.alertSound.Admits catalog
        (op.map Segment.value) (((n :: tokens).map Located.value).map .number) := by
      refine fun htwo => ⟨heq, _, rfl, by simp, by simpa using htwo, fun m hm => ?_⟩
      rw [List.zip_map_left] at hm
      obtain ⟨x, hx, rfl⟩ := List.mem_map.mp hm
      exact hvalid x hx
    obtain ⟨qs, tail, -, -, hfits, hstop⟩ := exists_fits_of_numbers cursor hop []
      (List.forall_mem_nil _) hrest hafter
      (Nat.zero_le 2) hnumbers hadmits
    exact ⟨_, tail, hfits, by simpa [ArgumentRule.Stops, Phrase.text, Phrase.lead] using hstop⟩

/-- Channels that were read without errors are a phrase, if nothing had to be expanded. -/
theorem exists_fits_of_color {op : Option (Segment Operator)}
    (hop : ∀ p ∈ op, p.IsOf Spelling.operator) (heq : IsEquality (op.map Segment.value))
    (ps : List (Segment Int)) (hps : ∀ p ∈ ps, p.IsOf Spelling.number) (hfour : ps.length ≤ 4)
    {after : Text} (hrest : cursor.rest = Segment.texts op.toList ++ (Segment.texts ps ++ after))
    (hb : atBoundary after = true)
    (hoperator : cursor.operator = (op.map (Segment.token cursor.consumed),
      cursor.pass (Segment.texts op.toList) (Segment.texts ps ++ after)))
    (hexpand : expandHex (cursor.pass (Segment.texts op.toList) (Segment.texts ps ++ after)) =
      ([], cursor.pass (Segment.texts op.toList) (Segment.texts ps ++ after)))
    (hvalid : (color keyword cursor).1.invalid = false) :
    ∃ qs tail, (∀ q ∈ qs, Segment.IsOf Spelling.number q) ∧ after = Segment.texts qs ++ tail ∧
      Phrase.Fits catalog .color cursor.rest tail ⟨op, (ps ++ qs).map (Segment.map .number)⟩ ∧
      ArgumentRule.color.Stops (ps ++ qs).length
        (cursor.pass (Segment.texts op.toList ++ Segment.texts (ps ++ qs)) tail) := by
  have heq' : IsEquality ((op.map (Segment.token cursor.consumed)).map Located.value) := by
    rwa [Segment.map_value_token]
  rcases hnumbers :
    (cursor.pass (Segment.texts op.toList) (Segment.texts ps ++ after)).numbers 4 with
    ⟨tokens, last⟩
  rw [color_eq keyword hoperator heq' hexpand, colorFrom, hnumbers] at hvalid
  split at hvalid
  · simp [Outcome.badFormat, Diagnostic.isError] at hvalid
  · next hthree =>
    rw [Outcome.invalid_captureComment, invalid_checkNumbers keyword rfl] at hvalid
    exact exists_fits_of_numbers cursor hop ps hps hrest hb hfour hnumbers fun hle =>
      ⟨heq, _, rfl, by simpa using hthree, by simpa using hle, by simpa using hvalid⟩

theorem exists_fits_color (hb : atBoundary cursor.rest = true)
    (hvalid : (color keyword cursor).1.invalid = false)
    (hedits : (color keyword cursor).1.edits = []) :
    ∃ r tail, Phrase.Fits catalog .color cursor.rest tail r ∧
      ArgumentRule.color.Stops r.values.length (cursor.pass r.text tail) := by
  obtain ⟨op, after, hop, hrest, hafter, hoperator⟩ := exists_segments_of_operator hb
  have heq := isEquality_of_withEquality hoperator hvalid
  -- A colour that was expanded left an edit.
  rcases expandHex_cases (cursor.pass (Segment.texts op.toList) after) hafter with
    hexpand | ⟨p, behind, hp, hrest', hbehind⟩
  · rw [Segment.map_value_token] at heq
    obtain ⟨qs, tail, -, -, hfits, hstop⟩ := exists_fits_of_color keyword cursor hop heq []
      (List.forall_mem_nil _) (Nat.zero_le 4) hrest hafter hoperator hexpand hvalid
    exact ⟨_, tail, hfits, by simpa [Phrase.text, Phrase.lead] using hstop⟩
  · have hexpand := expandHex_of_hex hp _ hrest' hbehind
    rw [color_eq keyword hoperator heq hexpand, edits_colorFrom] at hedits
    exact absurd hedits (List.cons_ne_nil _ _)

theorem exists_fits_catalogList {names : NameKind} (hb : atBoundary cursor.rest = true)
    (hvalid : (catalogList keyword (catalog.names names) cursor).1.invalid = false) :
    ∃ r tail, Phrase.Fits catalog (.catalogList names) cursor.rest tail r ∧
      (ArgumentRule.catalogList names).Stops r.values.length (cursor.pass r.text tail) := by
  obtain ⟨op, after, hop, hrest, hafter, hoperator⟩ := exists_segments_of_operator hb
  have heq := isEquality_of_withEquality hoperator hvalid
  rw [catalogList, withEquality_of_isEquality hoperator heq] at hvalid
  obtain ⟨ps, tail, hps, htail, hrest', hrow⟩ :=
    exists_segments_of_arguments (cursor.pass (Segment.texts op.toList) after) hafter
  have hbehind := arguments_behind hps htail hrest' hrow
  rw [hrow] at hvalid
  rw [Segment.map_value_token] at heq
  dsimp only at hvalid
  rw [List.partition_eq_filter_filter, Outcome.invalid_rejectComment, Bool.or_eq_false_iff]
    at hvalid
  have hne : ps ≠ [] := by
    rintro rfl
    simp [Outcome.badFormat, Diagnostic.isError] at hvalid
  rw [if_neg (by simpa [← List.length_eq_zero_iff] using hne)] at hvalid
  -- An unknown name would have been reported.
  have hknown : ∀ word ∈ ps.map Segment.value, isKnownName (catalog.names names) word = true := by
    rw [← Segment.map_value_tokens (cursor.pass (Segment.texts op.toList) after).consumed]
    intro word hword
    obtain ⟨token, htoken, rfl⟩ := List.mem_map.mp hword
    by_contra hunknown
    refine List.any_eq_false.mp hvalid.1 (wrongWord keyword token.range) ?_ rfl
    exact List.mem_map.mpr
      ⟨token, List.mem_filter.mpr ⟨htoken, by simpa using hunknown⟩, rfl⟩
  have hadmits : (ArgumentRule.catalogList names).Admits catalog (op.map Segment.value)
      ((ps.map Segment.value).map .text) :=
    ⟨heq, _, rfl, by simpa using hne, hknown⟩
  refine ⟨_, tail, fits_of_segments Spelling.argument_makesValues hop hps hadmits hrest hrest'
    htail, ?_⟩
  simpa [ArgumentRule.Stops, Phrase.text, Phrase.lead] using hbehind

/-! ## Every rule -/

/-- A phrase is read back, if the rule stops behind it. -/
theorem arguments_of_fits {rule : ArgumentRule} (h : r.Fits catalog rule cursor.rest tail)
    (hstop : rule.Stops r.values.length (cursor.pass r.text tail)) :
    arguments catalog keyword rule cursor =
      rule.finish keyword (r.outcome cursor.consumed) (cursor.pass r.text tail) := by
  cases rule with
  | range bounds allowed => exact range_of_fits keyword cursor h
  | boolean => exact boolean_of_fits keyword cursor h
  | oneOf allowed => exact oneOf_of_fits keyword cursor h
  | operatorNumber allowed => exact operatorNumber_of_fits keyword cursor h
  | socketGroup => exact socketGroup_of_fits keyword cursor h
  | catalogList names => exact catalogList_of_fits keyword cursor h hstop
  | color => exact color_of_fits keyword cursor h hstop
  | alertSound => exact alertSound_of_fits keyword cursor h hstop

/-- Arguments that were read without errors and without edits are a phrase, and the rule stops
behind it. -/
theorem exists_phrase {rule : ArgumentRule} (hb : atBoundary cursor.rest = true)
    (hvalid : (arguments catalog keyword rule cursor).1.invalid = false)
    (hedits : (arguments catalog keyword rule cursor).1.edits = []) :
    ∃ r tail, Phrase.Fits catalog rule cursor.rest tail r ∧
      rule.Stops r.values.length (cursor.pass r.text tail) := by
  -- A rule with a single value stops behind it in any case.
  cases rule with
  | range bounds allowed =>
    obtain ⟨r, tail, hfits⟩ := exists_fits_range keyword cursor hb hvalid
    exact ⟨r, tail, hfits, trivial⟩
  | boolean =>
    obtain ⟨r, tail, hfits⟩ := exists_fits_boolean keyword cursor hb hvalid
    exact ⟨r, tail, hfits, trivial⟩
  | oneOf allowed =>
    obtain ⟨r, tail, hfits⟩ := exists_fits_oneOf keyword cursor hb hvalid
    exact ⟨r, tail, hfits, trivial⟩
  | operatorNumber allowed =>
    obtain ⟨r, tail, hfits⟩ := exists_fits_operatorNumber keyword cursor hb hvalid
    exact ⟨r, tail, hfits, trivial⟩
  | socketGroup =>
    obtain ⟨r, tail, hfits⟩ := exists_fits_socketGroup keyword cursor hb hvalid
    exact ⟨r, tail, hfits, trivial⟩
  | catalogList names => exact exists_fits_catalogList keyword cursor hb hvalid
  | color => exact exists_fits_color keyword cursor hb hvalid hedits
  | alertSound => exact exists_fits_alertSound keyword cursor hb hvalid

/-! ## The end of the line -/

/-- Without a comment nothing more is done. -/
theorem finish_of_not_isCommented {rule : ArgumentRule} {outcome : Outcome}
    (h : cursor.isCommented = false) : rule.finish keyword outcome cursor = (outcome, cursor) := by
  unfold ArgumentRule.finish Outcome.captureComment Outcome.rejectComment
  rw [comment_of_not_isCommented h]
  split <;> rfl

/-- A comment is kept or reported. -/
theorem finish_of_comment {rule : ArgumentRule} {outcome : Outcome} {p : Segment Text}
    (hp : p.IsOf Spelling.comment) {after : Text} (hafter : allBlank after = true)
    (hrest : cursor.rest = p.text ++ after) :
    rule.finish keyword outcome cursor =
      (if rule.allowsComment then { outcome with comment := some (p.token cursor.consumed) }
        else outcome.report (Outcome.badComment keyword
          ⟨(p.token cursor.consumed).range.start, (cursor.pass p.text after).length⟩),
        cursor.pass p.text after) := by
  unfold ArgumentRule.finish Outcome.captureComment Outcome.rejectComment
  rw [comment_of_segment hp hafter hrest]
  split <;> rfl

/-- Behind valid arguments nothing is left if they are at their end. -/
theorem finish_valid_iff {rule : ArgumentRule} {outcome : Outcome}
    (houtcome : outcome.invalid = false) (hb : atBoundary cursor.rest = true) :
    (rule.finish keyword outcome cursor).1.invalid = false ∧
        (rule.finish keyword outcome cursor).2.isEmpty = true ↔ rule.Ends cursor.rest := by
  -- A comment is the end where it is allowed, and an error elsewhere.
  by_cases hhead : (trimStart cursor.rest).head? = some '#'
  · obtain ⟨p, after, hp, hrest, hafter⟩ := exists_comment hb hhead
    have hblank : allBlank cursor.rest = false := by
      by_contra hall
      simp [trimStart_of_allBlank (by simpa using hall)] at hhead
    rw [finish_of_comment keyword cursor hp hafter hrest, ArgumentRule.Ends]
    cases rule.allowsComment with
    | true => exact iff_of_true ⟨houtcome, hafter⟩ (Or.inr ⟨rfl, hhead⟩)
    | false => simp [Outcome.badComment, Diagnostic.isError, hblank]
  · rw [finish_of_not_isCommented keyword cursor (isCommented_eq_false_iff.mpr hhead)]
    simp [ArgumentRule.Ends, houtcome, isEmpty, hhead]

/-- Reading a rule, in terms of its arguments. -/
theorem read_eq (catalog : Catalog) (rule : ArgumentRule) :
    read catalog keyword rule cursor =
      if (arguments catalog keyword rule cursor).1.invalid ||
          (arguments catalog keyword rule cursor).2.isEmpty then
        arguments catalog keyword rule cursor
      else
        ((arguments catalog keyword rule cursor).1.report
          (leftoverText (arguments catalog keyword rule cursor).2.text
            ⟨(arguments catalog keyword rule cursor).2.offset,
              (arguments catalog keyword rule cursor).2.content.stop⟩),
          (arguments catalog keyword rule cursor).2) :=
  rfl

/-- A rule is valid with nothing left over if its arguments are so. -/
theorem read_invalid_eq_false_iff (catalog : Catalog) (rule : ArgumentRule) :
    (read catalog keyword rule cursor).1.invalid = false ↔
      (arguments catalog keyword rule cursor).1.invalid = false ∧
        (arguments catalog keyword rule cursor).2.isEmpty = true := by
  rw [read_eq]
  split
  · next h =>
    refine ⟨fun hvalid => ⟨hvalid, ?_⟩, And.left⟩
    simpa [hvalid] using h
  · next h =>
    refine iff_of_false ?_ fun hboth => h ?_
    · simp [leftoverText, Diagnostic.isError]
    · rw [hboth.2, Bool.or_true]

/-- What a rule comes to if a comment stands behind its arguments: the comment is kept or reported,
and nothing is left over. -/
theorem read_of_comment {rule : ArgumentRule} {outcome : Outcome} {next : Cursor} {gap text : Text}
    (h : arguments catalog keyword rule cursor = rule.finish keyword outcome next)
    (hrest : next.rest = gap ++ '#' :: text) (hgap : allBlank gap = true) (hne : gap ≠ []) :
    (read catalog keyword rule cursor).1 =
      if rule.allowsComment then
        { outcome with
          comment := some ⟨trimEnd ('#' :: text),
            spanOf (next.consumed ++ gap) (trimEnd ('#' :: text))⟩ }
      else outcome.report
        (Outcome.badComment keyword (spanOf (next.consumed ++ gap) ('#' :: text))) := by
  obtain ⟨after, hsplit, hafter⟩ := exists_commentSegment_append gap text
  rw [finish_of_comment keyword next (isOf_commentSegment hgap hne text) hafter
    (hrest.trans hsplit)] at h
  -- The comment goes up to the white space at the end, so nothing is left over.
  have hempty : (next.pass (commentSegment gap text).text after).isEmpty = true := hafter
  have hlength : (next.pass (commentSegment gap text).text after).length =
      byteLength (next.consumed ++ gap ++ '#' :: text) := by
    rw [length, Cursor.text, pass_consumed, pass_rest, List.append_assoc, ← hsplit,
      ← List.append_assoc]
  rw [read_eq, h]
  dsimp only
  rw [hempty, Bool.or_true, if_pos rfl, hlength]
  rfl

/-- What a rule comes to if no comment stands behind its arguments: text left over is an error, if
there is no other. -/
theorem read_of_not_isCommented {rule : ArgumentRule} {outcome : Outcome} {next : Cursor}
    (h : arguments catalog keyword rule cursor = rule.finish keyword outcome next)
    (hnot : next.isCommented = false) :
    (read catalog keyword rule cursor).1 =
      if outcome.invalid || next.isEmpty then outcome
      else outcome.report (leftoverText next.text ⟨next.offset, next.content.stop⟩) := by
  rw [finish_of_not_isCommented keyword next hnot] at h
  rw [read_eq, h]
  split <;> rfl

/-- A phrase with its end is valid. -/
theorem read_valid_of_fits {rule : ArgumentRule} (hfits : r.Fits catalog rule cursor.rest tail)
    (hends : rule.Ends tail) : (read catalog keyword rule cursor).1.invalid = false := by
  rw [read_invalid_eq_false_iff,
    arguments_of_fits keyword cursor hfits (rule.stops_of_isClosed _ _ hends.isClosed)]
  exact (finish_valid_iff keyword _ (r.invalid_outcome _) hfits.boundary).mpr hends

/-- A rule is valid if it is a phrase and an end, unless it is a colour that has to be expanded. -/
theorem read_valid_iff {rule : ArgumentRule} (hb : atBoundary cursor.rest = true)
    (hedits : (arguments catalog keyword rule cursor).1.edits = []) :
    (read catalog keyword rule cursor).1.invalid = false ↔
      ∃ r tail, Phrase.Fits catalog rule cursor.rest tail r ∧ rule.Ends tail := by
  rw [read_invalid_eq_false_iff]
  constructor
  · rintro ⟨hvalid, hempty⟩
    obtain ⟨r, tail, hfits, hstop⟩ := exists_phrase keyword cursor hb hvalid hedits
    rw [arguments_of_fits keyword cursor hfits hstop] at hvalid hempty
    exact ⟨r, tail, hfits, (finish_valid_iff keyword _ (r.invalid_outcome _) hfits.boundary).mp
      ⟨hvalid, hempty⟩⟩
  · rintro ⟨r, tail, hfits, hends⟩
    exact (read_invalid_eq_false_iff ..).mp (read_valid_of_fits keyword cursor hfits hends)

end Rule

end ItemFilter
