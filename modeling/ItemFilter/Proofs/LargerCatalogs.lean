import ItemFilter.Proofs.Whitelisting

/-!
# Lines read with a larger catalog

A name that is added to the catalog is accepted where it was reported before, and nothing else about
a line changes. An error that goes away can bring out another one, since text that is left over is
only reported if there is no other error; so the errors are counted, and not compared one by one.
Only the rules with names look into the catalog, and each of them at the names of its own kind.

## Main definitions

* `LineKind.values`: the accepted arguments of a line
* `Rule.Grows`: two readings of the same arguments, the second with a larger catalog

## Main results

* `Rule.grows_arguments`: a larger catalog accepts more and reports less
* `Rule.length_read_le`: with what is left over there are no more problems either
* `Classifier.classify_eq_of_names`: what a line depends on in the catalog
* `Classifier.parse_whitelist`: a line read with the catalog and with further names
-/

namespace ItemFilter

open Text Outcome
open Cursor (atStart atBoundary)

variable {ρ σ : Type}

/-- The accepted arguments of a line. -/
def LineKind.values : LineKind ρ → List (Located ρ Value)
  | rule line => line.values
  | _ => []

@[simp] theorem LineResult.values_place (result : LineResult Span) (location : Location) :
    (result.place location).kind.values =
      result.kind.values.map (Located.mapRange (Range.on location.line)) := by
  obtain ⟨kind, -, -⟩ := result
  cases kind <;> rfl

/-- A line is valid if it has no errors. -/
theorem LineResult.invalid_eq_false_iff {result : LineResult ρ} :
    result.invalid = false ↔ result.errors.length = 0 := by
  simp [invalid, errors, List.filter_eq_nil_iff]

/-! ## Two readings of the same arguments -/

namespace Rule

/-- Two readings of the same arguments, the second with a larger catalog: they end at the same
place, and the second accepts more and reports less. -/
structure Grows (run other : Outcome × Cursor) : Prop where
  /-- Both readings end at the same place. -/
  cursor_eq : other.2 = run.2
  /-- No value is lost. -/
  values : run.1.values.Sublist other.1.values
  /-- No problem is found in addition. -/
  diagnostics : other.1.diagnostics.Sublist run.1.diagnostics

theorem Grows.refl (run : Outcome × Cursor) : Grows run run :=
  ⟨rfl, List.Sublist.refl _, List.Sublist.refl _⟩

variable {catalog other : Catalog} (keyword : Keyword) (cursor : Cursor)

theorem grows_withEquality {arguments others : Option (Token Operator) → Cursor → Outcome × Cursor}
    (h : ∀ operator next, Grows (arguments operator next) (others operator next)) :
    Grows (withEquality keyword cursor arguments) (withEquality keyword cursor others) := by
  unfold withEquality
  split
  · split
    · exact h _ _
    · exact Grows.refl _
  · exact h _ _

theorem Grows.report {outcome more : Outcome} (h : Grows (outcome, cursor) (more, cursor))
    (diagnostic : Diagnostic Span) (next : Cursor) :
    Grows (outcome.report diagnostic, next) (more.report diagnostic, next) :=
  ⟨rfl, h.values, h.diagnostics.append_right _⟩

theorem Grows.rejectComment {outcome more : Outcome} (h : Grows (outcome, cursor) (more, cursor)) :
    Grows (outcome.rejectComment keyword cursor) (more.rejectComment keyword cursor) := by
  unfold Outcome.rejectComment
  split
  · exact h.report cursor _ _
  · exact ⟨rfl, h.values, h.diagnostics⟩

/-- A name that is covered in addition is accepted in its place among the others. -/
theorem grows_catalogList {names more : NameSet}
    (h : ∀ value, names.covers value = true → more.covers value = true) :
    Grows (catalogList keyword names cursor) (catalogList keyword more cursor) := by
  have hknown : ∀ word : Token Text, isKnownName names word.value = true →
      isKnownName more word.value = true := by
    intro word hword
    rw [isKnownName, Bool.and_eq_true] at hword ⊢
    exact ⟨hword.1, h word.value hword.2⟩
  refine grows_withEquality keyword cursor fun operator next => ?_
  rcases harguments : next.arguments with ⟨words, last⟩
  have hvalues := List.monotone_filter_right words hknown
  have hproblems := List.monotone_filter_right words
    (p := fun word => !isKnownName more word.value)
    (q := fun word => !isKnownName names word.value) fun word hword => by
      rw [Bool.not_eq_true'] at hword ⊢
      exact Bool.eq_false_iff.mpr fun hnames => Bool.eq_false_iff.mp hword (hknown word hnames)
  dsimp only
  rw [List.partition_eq_filter_filter, List.partition_eq_filter_filter]
  refine Grows.rejectComment keyword last ?_
  have hgrows : ∀ operator, Grows
      ({ operator, values := (words.filter fun word => isKnownName names word.value).map
          (Located.map .text), diagnostics := (words.filter fun word =>
            !isKnownName names word.value).map fun word => wrongWord keyword word.range }, last)
      ({ operator, values := (words.filter fun word => isKnownName more word.value).map
          (Located.map .text), diagnostics := (words.filter fun word =>
            !isKnownName more word.value).map fun word => wrongWord keyword word.range }, last) :=
    fun operator => ⟨rfl, hvalues.map _, hproblems.map _⟩
  split
  · exact (hgrows operator).report last _ _
  · exact hgrows operator

/-- A larger catalog accepts more and reports less. -/
theorem grows_arguments (h : catalog.Within other) (rule : ArgumentRule) :
    Grows (arguments catalog keyword rule cursor) (arguments other keyword rule cursor) := by
  cases rule with
  | catalogList kind => exact grows_catalogList keyword cursor (h kind)
  | _ => exact Grows.refl _

/-! ## With what is left over -/

/-- The problems of a rule are those of its arguments, or else text that is left over. -/
theorem diagnostics_read (catalog : Catalog) (rule : ArgumentRule) :
    (read catalog keyword rule cursor).1.diagnostics =
      if (arguments catalog keyword rule cursor).1.diagnostics.isEmpty &&
          !(arguments catalog keyword rule cursor).2.isEmpty then
        [leftoverText (arguments catalog keyword rule cursor).2.text
          ⟨(arguments catalog keyword rule cursor).2.offset,
            (arguments catalog keyword rule cursor).2.content.stop⟩]
      else (arguments catalog keyword rule cursor).1.diagnostics := by
  rw [read_eq, (isPlain_arguments keyword cursor catalog rule).invalid_eq]
  cases hempty : (arguments catalog keyword rule cursor).1.diagnostics.isEmpty with
  | false => rfl
  | true =>
    cases hleft : (arguments catalog keyword rule cursor).2.isEmpty with
    | true => rfl
    | false => simp [report, List.isEmpty_iff.mp hempty]

/-- The problems of a rule are errors. -/
theorem isError_of_mem_read (catalog : Catalog) (rule : ArgumentRule) :
    ∀ d ∈ (read catalog keyword rule cursor).1.diagnostics, d.isError = true := by
  rw [diagnostics_read]
  split
  · exact List.forall_mem_singleton.mpr rfl
  · exact fun d hd => ((isPlain_arguments keyword cursor catalog rule).unfixable d hd).1

/-- What is left over has no part in the values. -/
theorem values_read (catalog : Catalog) (rule : ArgumentRule) :
    (read catalog keyword rule cursor).1.values =
      (arguments catalog keyword rule cursor).1.values := by
  rw [read_eq]
  split <;> rfl

/-- With a larger catalog there are no more problems. Where all of them go away, text that is left
over takes the place of one. -/
theorem length_read_le (h : catalog.Within other) (rule : ArgumentRule) :
    (read other keyword rule cursor).1.diagnostics.length ≤
      (read catalog keyword rule cursor).1.diagnostics.length := by
  obtain ⟨hcursor, -, hdiagnostics⟩ := grows_arguments keyword cursor h rule
  rw [diagnostics_read, diagnostics_read, hcursor]
  generalize (arguments catalog keyword rule cursor).1.diagnostics = problems at hdiagnostics ⊢
  generalize (arguments other keyword rule cursor).1.diagnostics = fewer at hdiagnostics ⊢
  cases problems with
  | nil =>
    obtain rfl := List.sublist_nil.mp hdiagnostics
    exact Nat.le_refl _
  | cons d ds =>
    have hle := hdiagnostics.length_le
    rw [List.isEmpty_cons, Bool.false_and]
    split
    · exact Nat.le_add_left 1 ds.length
    · exact hle

end Rule

/-! ## Lines -/

/-- The keyword of a rule with names is that of the kind of its names. -/
theorem Keyword.eq_of_catalogList {keyword : Keyword} {category : Category} {kind : NameKind}
    (h : keyword.kind = .rule category (.catalogList kind)) : keyword = kind.keyword := by
  cases keyword <;> cases h <;> rfl

namespace Classifier

/-- A line depends on the names of a kind only if it is the rule with these names. -/
theorem classify_eq_of_names (c other : Classifier) (line : Text)
    (hwarnings : other.warnings = c.warnings)
    (hnames : ∀ kind : NameKind, (c.classify (atStart line)).kind.keyword? = some kind.keyword →
      other.catalog.names kind = c.catalog.names kind) :
    other.classify (atStart line) = c.classify (atStart line) := by
  rcases classify_eq_or c other line with ⟨gap, keyword, rest, hgap, hb, rfl⟩ | heq
  · rw [c.keyword?_of_boundary hgap hb] at hnames
    cases hkind : keyword.kind with
    | block =>
      rw [c.classify_block hkind rfl hgap hb, other.classify_block hkind rfl hgap hb, blockLine,
        blockLine, hwarnings]
    | rule category rule =>
      -- The catalog is only looked into by the rule with names.
      have harguments : Rule.arguments other.catalog keyword rule =
          Rule.arguments c.catalog keyword rule := by
        cases rule with
        | catalogList kind =>
          obtain rfl := Keyword.eq_of_catalogList hkind
          rw [Rule.arguments, Rule.arguments, hnames kind rfl]
        | _ => rfl
      rw [c.classify_rule hkind rfl hgap hb, other.classify_rule hkind rfl hgap hb, ruleLine_eq,
        ruleLine_eq, Rule.read_eq, Rule.read_eq, harguments]
  · exact heq

/-- A line has no more errors with a larger catalog, and no fewer values. -/
theorem classify_grows (c other : Classifier) (line : Text)
    (hcatalog : c.catalog.Within other.catalog) (hwarnings : other.warnings = c.warnings) :
    (other.classify (atStart line)).errors.length ≤ (c.classify (atStart line)).errors.length ∧
      (c.classify (atStart line)).kind.values.Sublist
        (other.classify (atStart line)).kind.values := by
  rcases classify_eq_or c other line with ⟨gap, keyword, rest, hgap, hb, rfl⟩ | heq
  · cases hkind : keyword.kind with
    | block =>
      rw [c.classify_block hkind rfl hgap hb, other.classify_block hkind rfl hgap hb, blockLine,
        blockLine, hwarnings]
      exact ⟨Nat.le_refl _, List.Sublist.refl _⟩
    | rule category rule =>
      rw [c.classify_rule hkind rfl hgap hb, other.classify_rule hkind rfl hgap hb, ruleLine_eq,
        ruleLine_eq]
      constructor
      · rw [LineResult.errors, LineResult.errors,
          List.filter_eq_self.mpr (Rule.isError_of_mem_read keyword _ other.catalog rule),
          List.filter_eq_self.mpr (Rule.isError_of_mem_read keyword _ c.catalog rule)]
        exact Rule.length_read_le keyword _ hcatalog rule
      · rw [LineKind.values, LineKind.values, Rule.values_read, Rule.values_read]
        exact (Rule.grows_arguments keyword _ hcatalog rule).values
  · rw [heq]
    exact ⟨Nat.le_refl _, List.Sublist.refl _⟩

/-- Further names in the catalog do a line no harm. A line that cannot be read cannot be read with
any catalog. A line without errors stays without errors, there are no more errors than before, and
the values are found among those with the further names. What is found depends on the names of a
kind only in the rule with these names, so nothing changes in other lines. -/
theorem parse_whitelist (c : Classifier) (classes bases : List Text) (location : Location)
    (line : Text) :
    (∃ e, ∀ other : Classifier, other.parse location line = .error e) ∨
    ∃ result more, c.parse location line = .ok result ∧
      parse { c with catalog := c.catalog.whitelist classes bases } location line = .ok more ∧
      (result.invalid = false → more.invalid = false) ∧
      more.errors.length ≤ result.errors.length ∧
      result.kind.values.Sublist more.kind.values ∧
      ((∀ kind : NameKind, result.kind.keyword? ≠ some kind.keyword) → more = result) ∧
      ∀ other : Catalog, (∀ kind : NameKind, result.kind.keyword? = some kind.keyword →
          other.names kind = c.catalog.names kind) →
        parse { c with catalog := other } location line = .ok result := by
  by_cases hline : Unbroken line
  · refine Or.inr ⟨_, _, c.parse_of_unbroken location hline, parse_of_unbroken _ location hline, ?_⟩
    obtain ⟨herrors, hvalues⟩ := classify_grows c
      { c with catalog := c.catalog.whitelist classes bases } line
      (c.catalog.within_whitelist classes bases) rfl
    simp only [LineResult.invalid_eq_false_iff, LineResult.errors_place, List.length_map,
      LineResult.values_place, LineResult.keyword?_place]
    refine ⟨fun hvalid => Nat.le_zero.mp (hvalid ▸ herrors), herrors, hvalues.map _,
      fun hnone => ?_, fun catalog hnames => ?_⟩
    · rw [classify_eq_of_names c { c with catalog := c.catalog.whitelist classes bases } line rfl
        fun kind hkind => absurd hkind (hnone kind)]
    · rw [parse_of_unbroken _ location hline,
        classify_eq_of_names c { c with catalog := catalog } line rfl hnames]
  · obtain ⟨before, x, after, rfl, hbefore, hx⟩ := Text.exists_break hline
    exact Or.inl ⟨_, fun other => other.parse_of_break location hbefore hx⟩

/-- The name is reported; once it is accepted, the text behind it is reported instead. -/
example :
    ((parse ⟨{}, true⟩ {} "Class Foo <".toList).toOption.map
        fun result => result.diagnostics.map Diagnostic.range) = some [⟨0, 6, 9⟩] ∧
      ((parse ⟨Catalog.whitelist {} ["Foo".toList] [], true⟩ {} "Class Foo <".toList).toOption.map
        fun result => result.diagnostics.map Diagnostic.range) = some [⟨0, 9, 11⟩] := by
  decide +kernel

end Classifier

end ItemFilter
