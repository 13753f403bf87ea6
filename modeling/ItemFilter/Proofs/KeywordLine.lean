import ItemFilter.Line.Classifier
import ItemFilter.Proofs.Outcomes
import ItemFilter.Proofs.Scan

/-!
# Lines with a keyword

A line either starts with a keyword, or nothing about it can be edited or fixed. What is found in a
line with a keyword is found by the rule of the keyword, from the cursor behind it, so the keyword
stays out of the way when the rest of the line changes.

## Main definitions

* `Text.Unbroken`: a text without line breaks
* `Cursor.atStart`: the cursor at the start of a line
* `Classifier.keywordLine`: a line with a keyword, read from behind it

## Main results

* `Classifier.classify_keyword`: how a line that starts with a keyword is classified
* `Classifier.classify_cases`: every line starts with a keyword or has errors without fixes only
-/

namespace ItemFilter

open Text
open Cursor hiding read

/-! ## Lines -/

/-- A text without line breaks. -/
def Text.Unbroken (text : Text) : Prop :=
  ∀ c ∈ text, breaksLine c = false

theorem Text.unbroken_append {left right : Text} :
    Unbroken (left ++ right) ↔ Unbroken left ∧ Unbroken right :=
  List.forall_mem_append

theorem Text.unbroken_iff {text : Text} : Unbroken text ↔ text.any breaksLine = false := by
  simp [Unbroken]

/-- If there is an element of a kind, there is a first one. -/
theorem exists_first {α : Type} {p : α → Bool} {xs : List α} (h : xs.any p = true) :
    ∃ front x rest, xs = front ++ x :: rest ∧ (∀ y ∈ front, p y = false) ∧ p x = true := by
  obtain ⟨x, hx⟩ := Option.isSome_iff_exists.mp (List.find?_isSome.mpr (List.any_eq_true.mp h))
  obtain ⟨hp, front, rest, rfl, hfront⟩ := List.find?_eq_some_iff_append.mp hx
  exact ⟨front, x, rest, rfl, by simpa using hfront, hp⟩

/-- A text that is not unbroken has a first line break. -/
theorem Text.exists_break {text : Text} (h : ¬ Unbroken text) :
    ∃ before x after, text = before ++ x :: after ∧ Unbroken before ∧ breaksLine x = true := by
  rw [unbroken_iff, Bool.not_eq_false] at h
  exact exists_first h

/-- The cursor at the start of a line. -/
def Cursor.atStart (line : Text) : Cursor :=
  ⟨[], line, extent line⟩

@[simp] theorem Cursor.atStart_rest (line : Text) : (atStart line).rest = line := rfl

namespace Classifier

/-- A text without line breaks is classified from its start. -/
theorem parse_of_unbroken (c : Classifier) (location : Location) {line : Text} (h : Unbroken line) :
    c.parse location line = .ok ((c.classify (atStart line)).place location) := by
  rw [parse, Cursor.ofText, if_neg (by simp [unbroken_iff.mp h])]
  rfl

/-- A text with line breaks is not classified, and the first of them is named. -/
theorem parse_of_break (c : Classifier) (location : Location) {before after : Text} {x : Char}
    (hbefore : Unbroken before) (hx : breaksLine x = true) :
    c.parse location (before ++ x :: after) = .error (.lineBreak (byteLength before)) := by
  have hany : (before ++ x :: after).any breaksLine = true := by simp [hx]
  have htake : (before ++ x :: after).takeWhile (fun c => !breaksLine c) = before := by
    rw [List.takeWhile_append_of_pos fun c hc => by simp [hbefore c hc],
      List.takeWhile_cons_of_neg (by simp [hx]), List.append_nil]
  rw [parse, Cursor.ofText, if_pos hany, htake]
  rfl

/-- Only texts without line breaks are classified. -/
theorem unbroken_of_parse {c : Classifier} {location : Location} {line : Text}
    {result : LineResult Range} (h : c.parse location line = .ok result) : Unbroken line := by
  by_contra hline
  obtain ⟨before, x, after, rfl, hbefore, hx⟩ := Text.exists_break hline
  rw [c.parse_of_break location hbefore hx] at h
  cases h

end Classifier

/-! ## Placed results -/

namespace LineResult

variable (result : LineResult Span) (location : Location)

@[simp] theorem diagnostics_place :
    (result.place location).diagnostics =
      result.diagnostics.map (Diagnostic.map (Range.on location.line) location.file) := rfl

@[simp] theorem edits_place :
    (result.place location).edits = result.edits.map (TextEdit.map (Range.on location.line)) := rfl

@[simp] theorem keyword?_place : (result.place location).kind.keyword? = result.kind.keyword? := by
  obtain ⟨kind, -, -⟩ := result
  cases kind <;> rfl

@[simp] theorem invalid_place : (result.place location).invalid = result.invalid := by
  simp only [invalid, diagnostics_place, List.any_map]
  rfl

@[simp] theorem errors_place :
    (result.place location).errors =
      result.errors.map (Diagnostic.map (Range.on location.line) location.file) := by
  simp only [errors, diagnostics_place, List.filter_map]
  rfl

@[simp] theorem warnings_place :
    (result.place location).warnings =
      result.warnings.map (Diagnostic.map (Range.on location.line) location.file) := by
  simp only [warnings, diagnostics_place, List.filter_map]
  rfl

@[simp] theorem fixes_place :
    (result.place location).fixes = result.fixes.map (Fix.map (Range.on location.line)) := by
  simp only [fixes, diagnostics_place, List.filterMap_map, List.map_filterMap]
  rfl

/-- Problems without fixes leave nothing to be fixed. -/
theorem fixes_eq_nil {ρ : Type} {result : LineResult ρ}
    (h : ∀ d ∈ result.diagnostics, d.isError = true ∧ d.fix = none) : result.fixes = [] :=
  List.filterMap_eq_nil_iff.mpr fun d hd => (h d hd).2

end LineResult

/-! ## Keywords -/

namespace Keyword

theorem isWordChar_of_mem_name (keyword : Keyword) :
    ∀ c ∈ keyword.name.toList, isWordChar c = true := by
  have hall : keyword.name.toList.all isWordChar = true := by cases keyword <;> decide
  exact List.all_eq_true.mp hall

theorem name_ne_nil (keyword : Keyword) : keyword.name.toList ≠ [] := by
  cases keyword <;> decide

/-- A keyword is found by its name. -/
theorem ofName?_eq_some_iff {word : Text} {keyword : Keyword} :
    ofName? word = some keyword ↔ word = keyword.name.toList := by
  constructor
  · intro h
    unfold ofName? at h
    have hfound := List.find?_some h
    exact (beq_iff_eq.mp hfound).symm
  · rintro rfl
    cases keyword <;> decide

/-- A name is a word of the line. -/
theorem name_spelled (keyword : Keyword) :
    Spelling.word keyword.name.toList keyword.name.toList :=
  ⟨keyword.name_ne_nil, keyword.isWordChar_of_mem_name, rfl⟩

theorem name_flush (keyword : Keyword) : IsFlush keyword.name.toList :=
  matchWord_reads.flush keyword.name_spelled

/-- A comment may follow the keyword of a block. -/
theorem allowsComment_of_block {keyword : Keyword} (h : keyword.kind = .block) :
    keyword.allowsComment = true := by
  cases keyword <;> cases h <;> rfl

end Keyword

/-! ## Comments -/

/-- What is recorded of a comment is the text behind its sign. -/
theorem commentBody_cons {body : Text} (h : trimEnd ('#' :: body) = '#' :: body) :
    commentBody ('#' :: body) = trim body := by
  have hflush : IsFlush ('#' :: body) := isFlush_cons.mpr (by decide)
  have hsame : trim ('#' :: body) = '#' :: body := by rw [trim, hflush.trimStart, h]
  rw [commentBody, hsame]
  rfl

/-- What is recorded of a comment does not depend on the white space at its ends. -/
theorem commentBody_trimEnd (text : Text) : commentBody (trimEnd ('#' :: text)) = trim text := by
  obtain ⟨gap, htext, hgap⟩ := eq_trimEnd_append text
  have htrim : trim text = trim (trimEnd text) := by
    conv_lhs => rw [htext, trim_append hgap]
  have hend := trimEnd_trimEnd ('#' :: text)
  rw [trimEnd_cons (by decide)] at hend ⊢
  rw [commentBody_cons hend, htrim]

/-! ## Classification -/

namespace Classifier

variable (c : Classifier)

/-- A rule line in terms of what its arguments come to. -/
theorem ruleLine_eq (keyword : Token Keyword) (category : Category) (rule : ArgumentRule)
    (cursor : Cursor) :
    c.ruleLine keyword category rule cursor =
      { kind := .rule
          { keyword
            range := (Rule.read c.catalog keyword.value rule cursor).2.content
            category
            operator := (Rule.read c.catalog keyword.value rule cursor).1.operator
            values := (Rule.read c.catalog keyword.value rule cursor).1.values
            comment := trailing (Rule.read c.catalog keyword.value rule cursor).1.comment }
        diagnostics := (Rule.read c.catalog keyword.value rule cursor).1.diagnostics
        edits := (Rule.read c.catalog keyword.value rule cursor).1.edits } :=
  rfl

/-- A line with a keyword, read from behind the keyword. -/
def keywordLine (keyword : Token Keyword) (cursor : Cursor) : LineResult Span :=
  match keyword.value.kind with
  | .block => c.blockLine keyword cursor
  | .rule category arguments => c.ruleLine keyword category arguments cursor

/-- A line that starts with a keyword is classified from behind it. -/
theorem classify_keyword (keyword : Keyword) {line gap rest : Text}
    (hline : line = gap ++ keyword.name.toList ++ rest) (hgap : allBlank gap = true)
    (hb : atBoundary rest = true) :
    c.classify (atStart line) = c.keywordLine ⟨keyword, spanOf gap keyword.name.toList⟩
      ⟨gap ++ keyword.name.toList, rest, extent line⟩ := by
  have hflush := keyword.name_flush.append rest
  have htrim : trimStart line = keyword.name.toList ++ rest := by
    rw [hline, List.append_assoc, trimStart_append_of_flush hgap hflush]
  -- A keyword starts with a letter, so the line is neither a comment nor empty.
  have hcomment : (atStart line).isCommented = false := by
    rw [isCommented, atStart_rest, htrim, keyword.name_flush.head?_append]
    cases keyword <;> decide
  have hempty : (atStart line).isEmpty = false := by
    rw [isEmpty, atStart_rest, hline, List.append_assoc, allBlank_append,
      hflush.allBlank_eq_false, Bool.and_false]
  have hrest : (atStart line).rest = gap ++ keyword.name.toList ++ rest := hline
  have hword := read_eq_some_iff.mpr
    (scan?_of_spelled matchWord_reads hrest hgap keyword.name_spelled hb)
  rw [classify, hcomment, hempty, Cursor.word, hword]
  simp only [Segment.token_value, Keyword.ofName?_eq_some_iff.mpr rfl]
  rfl

theorem classify_block {keyword : Keyword} (hkind : keyword.kind = .block) {line gap rest : Text}
    (hline : line = gap ++ keyword.name.toList ++ rest) (hgap : allBlank gap = true)
    (hb : atBoundary rest = true) :
    c.classify (atStart line) = c.blockLine ⟨keyword, spanOf gap keyword.name.toList⟩
      ⟨gap ++ keyword.name.toList, rest, extent line⟩ := by
  rw [c.classify_keyword keyword hline hgap hb, keywordLine, hkind]

theorem classify_rule {keyword : Keyword} {category : Category} {rule : ArgumentRule}
    (hkind : keyword.kind = .rule category rule) {line gap rest : Text}
    (hline : line = gap ++ keyword.name.toList ++ rest) (hgap : allBlank gap = true)
    (hb : atBoundary rest = true) :
    c.classify (atStart line) = c.ruleLine ⟨keyword, spanOf gap keyword.name.toList⟩ category rule
      ⟨gap ++ keyword.name.toList, rest, extent line⟩ := by
  rw [c.classify_keyword keyword hline hgap hb, keywordLine, hkind]

/-- The keyword a line starts with is the keyword of the line. -/
theorem keyword?_of_boundary {gap rest : Text} {keyword : Keyword}
    (hgap : allBlank gap = true) (hb : atBoundary rest = true) :
    (c.classify (atStart (gap ++ keyword.name.toList ++ rest))).kind.keyword? = some keyword := by
  rw [c.classify_keyword keyword rfl hgap hb, keywordLine]
  split <;> rfl

/-- A line whose first word is the name of a keyword starts with the keyword. -/
theorem exists_of_ofName? {line : Text} {word : Token Text} {cursor : Cursor} {keyword : Keyword}
    (hword : (atStart line).word = (some word, cursor))
    (hname : Keyword.ofName? word.value = some keyword) :
    ∃ gap rest, allBlank gap = true ∧ atBoundary rest = true ∧
      line = gap ++ keyword.name.toList ++ rest := by
  obtain ⟨gap, lexeme, after, hline, hgap, hspelled, hafter, -, -⟩ :=
    exists_spelled_of_scan? matchWord_reads (read_eq_some_iff.mp hword)
  have hlexeme : lexeme = keyword.name.toList := by
    rw [← Keyword.ofName?_eq_some_iff, ← hspelled.2.2, hname]
  exact ⟨gap, after, hgap, hafter, hlexeme ▸ hline⟩

/-- Every line starts with a keyword, or has none, no edits, and only errors without fixes. -/
theorem classify_cases (line : Text) :
    (∃ (gap : Text) (keyword : Keyword) (rest : Text), allBlank gap = true ∧
      atBoundary rest = true ∧ line = gap ++ keyword.name.toList ++ rest) ∨
    ((c.classify (atStart line)).edits = [] ∧
      (c.classify (atStart line)).kind.keyword? = none ∧
      ∀ d ∈ (c.classify (atStart line)).diagnostics, d.isError = true ∧ d.fix = none) := by
  rcases hword : (atStart line).word with ⟨_ | word, cursor⟩
  -- no word at all: a comment, an empty line, or an error
  · refine Or.inr ?_
    rw [classify, hword]
    split
    · exact ⟨rfl, rfl, nofun⟩
    · split
      · exact ⟨rfl, rfl, nofun⟩
      · exact ⟨rfl, rfl, List.forall_mem_singleton.mpr ⟨rfl, rfl⟩⟩
  · cases hname : Keyword.ofName? word.value with
    | some keyword =>
      obtain ⟨gap, rest, hkeyword⟩ := exists_of_ofName? hword hname
      exact Or.inl ⟨gap, keyword, rest, hkeyword⟩
    -- a word that is no keyword: an error as well
    | none =>
      refine Or.inr ?_
      rw [classify, hword]
      simp only [hname]
      split
      · exact ⟨rfl, rfl, nofun⟩
      · split
        · exact ⟨rfl, rfl, nofun⟩
        · exact ⟨rfl, rfl, List.forall_mem_singleton.mpr ⟨rfl, rfl⟩⟩

/-- Only a line that starts with the keyword of a rule is a rule. -/
theorem exists_rule_of_kind {line : Text} {rule : RuleLine Span}
    (h : (c.classify (atStart line)).kind = .rule rule) :
    ∃ (gap : Text) (keyword : Keyword) (rest : Text) (category : Category)
      (arguments : ArgumentRule), allBlank gap = true ∧ atBoundary rest = true ∧
        line = gap ++ keyword.name.toList ++ rest ∧
        keyword.kind = .rule category arguments := by
  rcases c.classify_cases line with ⟨gap, keyword, rest, hgap, hb, rfl⟩ | ⟨-, hnone, -⟩
  · cases hkind : keyword.kind with
    | block =>
      rw [c.classify_block hkind rfl hgap hb] at h
      cases h
    | rule category arguments =>
      exact ⟨gap, keyword, rest, category, arguments, hgap, hb, rfl, hkind⟩
  · rw [h] at hnone
    cases hnone

end Classifier

end ItemFilter
