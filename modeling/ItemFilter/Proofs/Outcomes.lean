import ItemFilter.Rule

/-!
# Problems of a rule

The problems of a rule's arguments are errors, and none of them comes with a fix. A fix is offered
only for text left over behind arguments without errors, so a line has at most one.

## Main definitions

* `Outcome.IsPlain`: every problem is an error without a fix

## Main results

* `Rule.isPlain_arguments`: the problems of the arguments of every rule are errors without fixes,
  and only colours are edited while they are read
-/

namespace ItemFilter

open Text Outcome

/-! ## Valid outcomes -/

namespace Outcome

@[simp] theorem invalid_mk (operator : Option (Token Operator)) (values : List (Token Value))
    (diagnostics : List (Diagnostic Span)) (comment : Option (Token Text))
    (edits : List (TextEdit Span)) :
    (mk operator values diagnostics comment edits).invalid = diagnostics.any Diagnostic.isError :=
  rfl

@[simp] theorem invalid_report (outcome : Outcome) (diagnostic : Diagnostic Span) :
    (outcome.report diagnostic).invalid = (outcome.invalid || diagnostic.isError) := by
  simp [invalid, report]

@[simp] theorem invalid_accept (outcome : Outcome) (value : Token Value) :
    (outcome.accept value).invalid = outcome.invalid := rfl

@[simp] theorem invalid_captureComment (outcome : Outcome) (cursor : Cursor) :
    (captureComment outcome cursor).1.invalid = outcome.invalid := by
  unfold captureComment
  split <;> rfl

/-- A rejected comment is an error. -/
@[simp] theorem invalid_rejectComment (keyword : Keyword) (outcome : Outcome) (cursor : Cursor) :
    (rejectComment keyword outcome cursor).1.invalid =
      (outcome.invalid || cursor.comment.1.isSome) := by
  unfold rejectComment
  split
  · next h => simp [h, badComment, Diagnostic.isError]
  · next h => simp [h]

@[simp] theorem edits_report (outcome : Outcome) (diagnostic : Diagnostic Span) :
    (outcome.report diagnostic).edits = outcome.edits := rfl

@[simp] theorem edits_captureComment (outcome : Outcome) (cursor : Cursor) :
    (captureComment outcome cursor).1.edits = outcome.edits := by
  unfold captureComment
  split <;> rfl

/-! ## Plain outcomes -/

/-- Every problem is an error without a fix, and there are no edits unless the line may be edited
while it is read. -/
structure IsPlain (editable : Bool) (outcome : Outcome) : Prop where
  /-- Every problem is an error without a fix. -/
  unfixable : ∀ d ∈ outcome.diagnostics, d.isError = true ∧ d.fix = none
  /-- A line that may not be edited is not. -/
  unedited : editable = false → outcome.edits = []

variable {editable : Bool} {outcome : Outcome}

/-- A plain outcome is in error if there is a problem. -/
theorem IsPlain.invalid_eq (h : outcome.IsPlain editable) :
    outcome.invalid = !outcome.diagnostics.isEmpty := by
  rw [invalid]
  cases hdiagnostics : outcome.diagnostics with
  | nil => rfl
  | cons d ds =>
    rw [List.any_cons, (h.unfixable d (by simp [hdiagnostics])).1]
    rfl

/-- An outcome without problems and edits. -/
theorem isPlain_of_nil (hdiagnostics : outcome.diagnostics = [])
    (hedits : editable = false → outcome.edits = []) : outcome.IsPlain editable :=
  ⟨by simp [hdiagnostics], hedits⟩

theorem IsPlain.report (h : outcome.IsPlain editable) {diagnostic : Diagnostic Span}
    (herror : diagnostic.isError = true) (hfix : diagnostic.fix = none) :
    (outcome.report diagnostic).IsPlain editable where
  unfixable d hd := by
    rcases List.mem_append.mp hd with hd | hd
    · exact h.unfixable d hd
    · obtain rfl := List.mem_singleton.mp hd
      exact ⟨herror, hfix⟩
  unedited := h.unedited

theorem IsPlain.accept (h : outcome.IsPlain editable) (value : Token Value) :
    (outcome.accept value).IsPlain editable :=
  ⟨h.unfixable, h.unedited⟩

theorem IsPlain.captureComment (h : outcome.IsPlain editable) (cursor : Cursor) :
    (captureComment outcome cursor).1.IsPlain editable := by
  unfold Outcome.captureComment
  split
  · exact ⟨h.unfixable, h.unedited⟩
  · exact h

theorem IsPlain.rejectComment (h : outcome.IsPlain editable) (keyword : Keyword)
    (cursor : Cursor) : (rejectComment keyword outcome cursor).1.IsPlain editable := by
  unfold Outcome.rejectComment
  split
  · exact h.report rfl rfl
  · exact h

/-- Arguments behind an operator that has to be `=` are plain if they are so behind every `=`. -/
theorem isPlain_withEquality {keyword : Keyword} {cursor : Cursor}
    {arguments : Option (Token Operator) → Cursor → Outcome × Cursor}
    (h : ∀ operator next, (arguments operator next).1.IsPlain editable) :
    (withEquality keyword cursor arguments).1.IsPlain editable := by
  unfold withEquality
  split
  · split
    · exact h _ _
    · exact (isPlain_of_nil rfl fun _ => rfl : IsPlain editable {}).report rfl rfl
  · exact h _ _

end Outcome

/-! ## Rule by rule -/

theorem Bounds.contains_iff (bounds : Bounds) {n : Int} :
    bounds.contains n = true ↔ bounds.least ≤ n ∧ n ≤ bounds.greatest := by
  simp [Bounds.contains]

namespace Rule

/-- Numbers are accepted together or reported one by one. -/
theorem checkNumbers_eq (keyword : Keyword) (outcome : Outcome)
    (numbers : List (Token Int × Bounds)) :
    checkNumbers keyword outcome numbers =
      if ∀ n ∈ numbers, n.2.contains n.1.value = true then
        { outcome with values := outcome.values ++ numbers.map fun n => n.1.map .number }
      else
        { outcome with
          diagnostics := outcome.diagnostics ++
            (numbers.filter fun n => !n.2.contains n.1.value).map fun n =>
              badValue keyword n.1.range n.2.display .actions } := by
  -- The numbers are accepted if none of them is filtered out.
  have hempty : (numbers.filter fun n => !n.2.contains n.1.value) = [] ↔
      ∀ n ∈ numbers, n.2.contains n.1.value = true := by
    simp [List.filter_eq_nil_iff]
  by_cases h : ∀ n ∈ numbers, n.2.contains n.1.value = true
  · rw [if_pos h, checkNumbers]
    simp [hempty.mpr h]
  · rw [if_neg h, checkNumbers]
    have hne : (numbers.filter fun n => !n.2.contains n.1.value) ≠ [] := fun he => h (hempty.mp he)
    simp [hne]

/-- Numbers are valid if each of them is within its bounds. -/
theorem invalid_checkNumbers (keyword : Keyword) {outcome : Outcome}
    (houtcome : outcome.invalid = false) (numbers : List (Token Int × Bounds)) :
    (checkNumbers keyword outcome numbers).invalid = false ↔
      ∀ n ∈ numbers, n.2.contains n.1.value = true := by
  rw [checkNumbers_eq]
  split
  · next h => exact iff_of_true houtcome h
  · next h =>
    refine iff_of_false (fun hvalid => h fun n hn => ?_) h
    cases hbad : n.2.contains n.1.value with
    | true => rfl
    | false =>
      refine absurd (List.any_eq_false.mp hvalid (badValue keyword n.1.range n.2.display .actions)
        (List.mem_append_right _ (List.mem_map.mpr ⟨n, List.mem_filter.mpr ⟨hn, ?_⟩, rfl⟩))) ?_
      · simp [hbad]
      · simp [badValue, Diagnostic.isError]

@[simp] theorem edits_checkNumbers (keyword : Keyword) (outcome : Outcome)
    (numbers : List (Token Int × Bounds)) :
    (checkNumbers keyword outcome numbers).edits = outcome.edits := by
  rw [checkNumbers_eq]
  split <;> rfl

theorem isPlain_checkNumbers (keyword : Keyword) {editable : Bool} {outcome : Outcome}
    (h : outcome.IsPlain editable) (numbers : List (Token Int × Bounds)) :
    (checkNumbers keyword outcome numbers).IsPlain editable := by
  rw [checkNumbers_eq]
  split
  · exact ⟨h.unfixable, h.unedited⟩
  · refine ⟨fun d hd => ?_, h.unedited⟩
    rcases List.mem_append.mp hd with hd | hd
    · exact h.unfixable d hd
    · obtain ⟨n, -, rfl⟩ := List.mem_map.mp hd
      exact ⟨rfl, rfl⟩

variable (keyword : Keyword) (cursor : Cursor)

theorem isPlain_range (bounds : Bounds) (allowed : Bool) :
    (range keyword bounds allowed cursor).1.IsPlain false := by
  have hnone : IsPlain false {} := isPlain_of_nil rfl fun _ => rfl
  -- An operator is either kept or an error of its own.
  have hsome : ∀ op, IsPlain false (if allowed then { operator := some op }
      else { diagnostics := [needlessOperator keyword op.range] }) := by
    intro op
    split
    · exact isPlain_of_nil rfl fun _ => rfl
    · exact hnone.report rfl rfl
  unfold range
  rcases cursor.operator with ⟨_ | op, next⟩
  · refine IsPlain.rejectComment ?_ keyword _
    dsimp only
    split
    · exact hnone.report rfl rfl
    · split
      · exact hnone.accept _
      · exact hnone.report rfl rfl
  · refine IsPlain.rejectComment ?_ keyword _
    dsimp only
    split
    · exact (hsome op).report rfl rfl
    · split
      · exact (hsome op).accept _
      · exact (hsome op).report rfl rfl

theorem isPlain_operatorNumber (allowed : List Int) :
    (operatorNumber keyword allowed cursor).1.IsPlain false := by
  have hlead : IsPlain false { operator := (cursor.operator).1 } := isPlain_of_nil rfl fun _ => rfl
  unfold operatorNumber
  dsimp only
  split
  · exact hlead.report rfl rfl
  · refine IsPlain.rejectComment ?_ keyword _
    split
    · exact hlead.accept _
    · exact hlead.report rfl rfl

theorem isPlain_alertSound : (alertSound keyword cursor).1.IsPlain false := by
  refine isPlain_withEquality fun operator next => ?_
  have hlead : IsPlain false { operator } := isPlain_of_nil rfl fun _ => rfl
  dsimp only
  split
  · exact hlead.report rfl rfl
  · exact (isPlain_checkNumbers keyword hlead _).captureComment _

theorem isPlain_boolean : (boolean keyword cursor).1.IsPlain false := by
  refine isPlain_withEquality fun operator next => IsPlain.rejectComment ?_ keyword _
  have hlead : IsPlain false { operator } := isPlain_of_nil rfl fun _ => rfl
  split
  · exact hlead.accept _
  · exact hlead.report rfl rfl

theorem isPlain_oneOf (allowed : List String) :
    (oneOf keyword allowed cursor).1.IsPlain false := by
  have hlead : IsPlain false { operator := (cursor.operator).1 } := isPlain_of_nil rfl fun _ => rfl
  unfold oneOf
  dsimp only
  split
  · exact hlead.report rfl rfl
  · refine IsPlain.rejectComment ?_ keyword _
    split
    · exact hlead.accept _
    · exact hlead.report rfl rfl

theorem isPlain_socketGroup : (socketGroup keyword cursor).1.IsPlain false := by
  refine isPlain_withEquality fun operator next => ?_
  have hlead : IsPlain false { operator } := isPlain_of_nil rfl fun _ => rfl
  dsimp only
  split
  · exact hlead.report rfl rfl
  · refine IsPlain.rejectComment ?_ keyword _
    split
    · exact hlead.accept _
    · exact hlead.report rfl rfl

theorem isPlain_catalogList (names : NameSet) :
    (catalogList keyword names cursor).1.IsPlain false := by
  refine isPlain_withEquality fun operator next => IsPlain.rejectComment ?_ keyword _
  have hlead : ∀ (values : List (Token Value)) (words : List (Token Text)), IsPlain false
      { operator, values, diagnostics := words.map fun w => wrongWord keyword w.range } :=
    fun values words => ⟨fun d hd => by
      obtain ⟨word, -, rfl⟩ := List.mem_map.mp hd
      exact ⟨rfl, rfl⟩, fun _ => rfl⟩
  split
  · exact (hlead _ _).report rfl rfl
  · exact hlead _ _

theorem isPlain_color : (color keyword cursor).1.IsPlain true := by
  refine isPlain_withEquality fun operator next => ?_
  have hlead : ∀ edits, IsPlain true { operator, edits } := fun _ => isPlain_of_nil rfl nofun
  dsimp only
  split
  · exact (hlead _).report rfl rfl
  · exact (isPlain_checkNumbers keyword (hlead _) _).captureComment _

/-- The problems of the arguments of a rule are errors without fixes, and nothing but a colour is
edited while it is read. -/
theorem isPlain_arguments (catalog : Catalog) (rule : ArgumentRule) :
    (arguments catalog keyword rule cursor).1.IsPlain (rule == .color) := by
  cases rule with
  | range bounds allowed => exact isPlain_range keyword cursor bounds allowed
  | boolean => exact isPlain_boolean keyword cursor
  | oneOf allowed => exact isPlain_oneOf keyword cursor allowed
  | operatorNumber allowed => exact isPlain_operatorNumber keyword cursor allowed
  | socketGroup => exact isPlain_socketGroup keyword cursor
  | catalogList names => exact isPlain_catalogList keyword cursor (catalog.names names)
  | color => exact isPlain_color keyword cursor
  | alertSound => exact isPlain_alertSound keyword cursor

end Rule

end ItemFilter
