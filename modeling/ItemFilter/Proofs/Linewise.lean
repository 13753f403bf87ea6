import ItemFilter.Proofs.Convergence

/-!
# Linting line by line

Linting is a loop that reads each line out of the document it edits, and checks each edit against
the document as it is by then. As the edits of a line are on that line, and the line is the one that
was just read, this comes to looking at each line on its own: a line is classified as it was in the
document at first, all of its edits can be made, and no other line changes. The one thing that can
go wrong is a line break within a line. It stops the loop there, with the lines in front of it
edited and all others as they were.

## Main definitions

* `Document.applyEdits`: edits of a document, one after another
* `Document.lintLoop`: linting as a loop over the numbers of the lines
* `Document.LintsTo`: a line linted on its own

## Main results

* `Document.lint_eq_lintLoop`: linting is the loop
* `Document.lint_linewise`: what linting comes to, line by line
-/

namespace ItemFilter

open Text Classifier
open Cursor hiding read

namespace Document

variable (c : Classifier) (file : Option String)

/-! ## The loop -/

/-- Makes edits one after another, up to the first that cannot be made. -/
def applyEdits (document : Document) :
    List (TextEdit Range) → Except DocumentError Unit × Document
  | [] => (.ok (), document)
  | edit :: edits =>
    match document.applyEdit edit with
    | .error e => (.error e, document)
    | .ok edited => applyEdits edited edits

/-- Lints `count` lines from the one numbered `n` on, each as it stands in the document when its
turn comes. -/
def lintLoop (document : Document) (n : Nat) :
    Nat → Except DocumentError (List (LineResult Range)) × Document
  | 0 => (.ok [], document)
  | count + 1 =>
    match document.line? n with
    | none => (.error (.outOfRange ⟨n, 0, 0⟩), document)
    | some line =>
      match c.parse ⟨file, n⟩ line with
      | .error e => (.error (.scan e), document)
      | .ok result =>
        match document.applyEdits result.edits with
        | (.error e, edited) => (.error e, edited)
        | (.ok (), edited) =>
          let (results, last) := lintLoop edited (n + 1) count
          (results.map (result :: ·), last)

/-- Edits of one line are made in the document as they are made in the line, and leave the other
lines alone. -/
theorem applyEdits_line (document : Document) (done rest : List Text) (line : Text)
    {edits : List (TextEdit Range)} (h : ∀ edit ∈ edits, edit.range.line = done.length) :
    applyEdits { document with lines := done ++ line :: rest } edits =
      ((editLine line edits).1,
        { document with lines := done ++ (editLine line edits).2 :: rest }) := by
  -- Induction on the edits, the line changing with each.
  induction edits generalizing line with
  | nil => rfl
  | cons edit edits ih =>
    rw [List.forall_mem_cons] at h
    obtain ⟨hedit, hedits⟩ := h
    rcases hcut : cut? edit.range.start edit.range.stop line with _ | ⟨before, inside, after⟩
    · have hslice : slice? edit.range.start edit.range.stop line = none := by
        rw [slice?, hcut]
        rfl
      simp [applyEdits, applyEdit, textIn, line?, hedit, editLine, hslice, bind, Except.bind]
    · have hslice : slice? edit.range.start edit.range.stop line = some inside := by
        rw [slice?, hcut]
        rfl
      have hreplace : replace? edit.range.start edit.range.stop edit.newText line =
          some (before ++ edit.newText ++ after) := by
        rw [replace?, hcut]
        rfl
      by_cases hold : inside = edit.oldText
      · have happly : applyEdit { document with lines := done ++ line :: rest } edit =
            .ok { document with lines := done ++ (before ++ edit.newText ++ after) :: rest } := by
          simp [applyEdit, textIn, setText, line?, hedit, hslice, hreplace, hold, bind, Except.bind]
        rw [applyEdits, happly, editLine, hslice, hreplace]
        simp only [if_pos hold]
        exact ih _ hedits
      · have happly : applyEdit { document with lines := done ++ line :: rest } edit =
            .error (.staleEdit edit.range.line edit.oldText inside) := by
          simp [applyEdit, textIn, line?, hedit, hslice, hold, bind, Except.bind, throw,
            throwThe, MonadExceptOf.throw]
        rw [applyEdits, happly, editLine, hslice, hreplace]
        simp only [if_neg hold]

/-- The edits of a classified line are on that line. -/
theorem line_of_mem_edits {c : Classifier} {location : Location} {line : Text}
    {result : LineResult Range} (h : c.parse location line = .ok result) :
    ∀ edit ∈ result.edits, edit.range.line = location.line := by
  rw [c.parse_of_unbroken location (unbroken_of_parse h)] at h
  obtain rfl := Except.ok.inj h
  intro edit hedit
  obtain ⟨placed, -, rfl⟩ := List.mem_map.mp hedit
  rfl

/-- The loop over the last lines of a document, when the others have been edited. -/
theorem lintLoop_append (document : Document) (done lines : List Text) :
    lintLoop c file { document with lines := done ++ lines } done.length lines.length =
      ((lintFrom c file done.length lines).1,
        { document with lines := done ++ (lintFrom c file done.length lines).2 }) := by
  -- Induction on the lines that are left, those in `done` being as the loop left them.
  induction lines generalizing done with
  | nil => rfl
  | cons line rest ih =>
    have hline : line? { document with lines := done ++ line :: rest } done.length = some line := by
      simp [line?]
    rw [List.length_cons, lintLoop, hline, lintFrom]
    rcases hparse : c.parse ⟨file, done.length⟩ line with e | result
    · dsimp only
      rw [hparse]
    · have hedits := document.applyEdits_line done rest line (line_of_mem_edits hparse)
      dsimp only
      rw [hparse]
      dsimp only
      rw [hedits]
      rcases editLine line result.edits with ⟨e | ⟨⟩, edited⟩
      · rfl
      · have hrest := ih (done ++ [edited])
        rw [List.length_append, List.length_singleton, List.append_assoc, List.append_assoc,
          List.singleton_append, List.singleton_append] at hrest
        dsimp only
        rw [hrest]

/-- Linting line by line is the loop over the document that is being edited. -/
theorem lint_eq_lintLoop (document : Document) :
    document.lint c file = lintLoop c file document 0 document.lines.length :=
  (lintLoop_append c file document [] document.lines).symm

/-! ## Lines that can be linted -/

/-- A line on its own: what it is classified as, and what becomes of it. -/
structure LintsTo (location : Location) (line : Text) (result : LineResult Range)
    (linted : Text) : Prop where
  /-- The line is classified as it stands. -/
  parse_eq : c.parse location line = .ok result
  /-- All of its edits can be made. -/
  editLine_eq : editLine line result.edits = (.ok (), linted)

variable {c}

/-- A line with its edits made is what linting leaves of it. -/
theorem lintsTo_of_edited {line edited : Text} (h : c.Edited line edited) (hline : Unbroken line)
    (location : Location) :
    LintsTo c location line ((c.classify (atStart line)).place location) edited :=
  ⟨c.parse_of_unbroken location hline, h.editLine_eq location.line⟩

/-- The result of a line is found at its number. -/
theorem getElem?_classifyFrom (file : Option String) (n : Nat) (lines : List Text) (i : Nat) :
    (c.classifyFrom file n lines)[i]? =
      lines[i]?.map fun line => (c.classify (atStart line)).place ⟨file, n + i⟩ := by
  induction lines generalizing n i with
  | nil => rfl
  | cons line lines ih =>
    cases i with
    | zero => rfl
    | succ i =>
      rw [classifyFrom, List.getElem?_cons_succ, List.getElem?_cons_succ, ih (n + 1) i,
        Nat.add_right_comm]
      rfl

theorem length_classifyFrom (file : Option String) (n : Nat) (lines : List Text) :
    (c.classifyFrom file n lines).length = lines.length := by
  induction lines generalizing n with
  | nil => rfl
  | cons line lines ih => rw [classifyFrom, List.length_cons, List.length_cons, ih (n + 1)]

/-- What becomes of an element is found where the element was. -/
theorem exists_getElem?_of_forall₂ {α β : Type} {R : α → β → Prop} {xs : List α} {ys : List β}
    (h : List.Forall₂ R xs ys) {i : Nat} {x : α} (hi : xs[i]? = some x) :
    ∃ y, ys[i]? = some y ∧ R x y := by
  induction h generalizing i with
  | nil => cases hi
  | cons hline _ ih =>
    cases i with
    | zero =>
      obtain rfl := Option.some.inj hi
      exact ⟨_, rfl, hline⟩
    | succ i => exact ih hi

/-- Lines that are not unbroken have a first one that is broken, at its first line break. -/
theorem exists_broken_line {lines : List Text} (h : ¬ ∀ line ∈ lines, Unbroken line) :
    ∃ front before x after rest, lines = front ++ (before ++ x :: after) :: rest ∧
      (∀ line ∈ front, Unbroken line) ∧ Unbroken before ∧ breaksLine x = true := by
  have hany : (lines.any fun line => line.any breaksLine) = true := by
    by_contra hnone
    apply h
    intro line hline
    rw [Bool.not_eq_true, List.any_eq_false] at hnone
    simpa [Unbroken] using hnone line hline
  obtain ⟨front, line, rest, rfl, hfront, hline⟩ := exists_first hany
  have hbroken : ¬ Unbroken line := by simp [unbroken_iff, hline]
  obtain ⟨before, x, after, rfl, hbefore, hx⟩ := exists_break hbroken
  refine ⟨front, before, x, after, rest, rfl, ?_, hbefore, hx⟩
  intro other hother
  exact unbroken_iff.mpr (hfront other hother)

/-- Linting stops at a broken line, and leaves it and the lines behind it alone. -/
theorem lintFrom_of_break (file : Option String) (n : Nat) {front : List Text}
    (hfront : ∀ line ∈ front, Unbroken line)
    {before after : Text} {x : Char} (hbefore : Unbroken before) (hx : breaksLine x = true)
    (rest : List Text) :
    ∃ edited, List.Forall₂ c.Edited front edited ∧
      lintFrom c file n (front ++ (before ++ x :: after) :: rest) =
        (.error (.scan (.lineBreak (byteLength before))),
          edited ++ (before ++ x :: after) :: rest) := by
  -- Induction on the lines in front, which are edited as if nothing came behind them.
  induction front generalizing n with
  | nil =>
    refine ⟨[], .nil, ?_⟩
    rw [List.nil_append, lintFrom, c.parse_of_break ⟨file, n⟩ hbefore hx]
  | cons line front ih =>
    rw [List.forall_mem_cons] at hfront
    obtain ⟨edited, hedited, hlint⟩ := ih (n + 1) hfront.2
    obtain ⟨linted, hlinted⟩ := c.exists_edited hfront.1
    refine ⟨linted :: edited, .cons hlinted hedited, ?_⟩
    rw [List.cons_append, lintFrom, c.parse_of_unbroken ⟨file, n⟩ hfront.1]
    dsimp only
    rw [LineResult.edits_place, hlinted.editLine_eq n, hlint]
    rfl

variable (c)

/-- If no line is broken, linting succeeds and makes the edits of every line on its own. -/
theorem lint_of_unbroken (document : Document) (h : ∀ line ∈ document.lines, Unbroken line) :
    ∃ results edited,
      document.lint c file = (.ok results, { document with lines := edited }) ∧
      results.length = document.lines.length ∧ edited.length = document.lines.length ∧
      ∀ i line, document.lines[i]? = some line →
        ∃ result linted, results[i]? = some result ∧ edited[i]? = some linted ∧
          LintsTo c ⟨file, i⟩ line result linted := by
  obtain ⟨edited, hlint, hedited, -⟩ := lintFrom_eq c file 0 h
  refine ⟨c.classifyFrom file 0 document.lines, edited, ?_, length_classifyFrom ..,
    hedited.length_eq.symm, ?_⟩
  · rw [lint, hlint]
  · intro i line hi
    obtain ⟨linted, hlinted, hline⟩ := exists_getElem?_of_forall₂ hedited hi
    refine ⟨_, linted, ?_, hlinted, lintsTo_of_edited hline (h line (List.mem_of_getElem? hi)) _⟩
    rw [getElem?_classifyFrom, hi, Nat.zero_add]
    rfl

/-- If a line is broken, linting stops at the first one, with the lines in front of it edited. -/
theorem lint_of_break (document : Document) (h : ¬ ∀ line ∈ document.lines, Unbroken line) :
    ∃ i before x after edited,
      document.lint c file =
        (.error (.scan (.lineBreak (byteLength before))), { document with lines := edited }) ∧
      document.lines[i]? = some (before ++ x :: after) ∧ Unbroken before ∧ breaksLine x = true ∧
      edited.length = document.lines.length ∧
      (∀ j < i, ∀ line, document.lines[j]? = some line → Unbroken line ∧
        ∃ result linted, edited[j]? = some linted ∧ LintsTo c ⟨file, j⟩ line result linted) ∧
      ∀ j, i ≤ j → edited[j]? = document.lines[j]? := by
  obtain ⟨front, before, x, after, rest, hlines, hfront, hbefore, hx⟩ := exists_broken_line h
  obtain ⟨edited, hedited, hlint⟩ := lintFrom_of_break file 0 hfront hbefore hx rest
  have hlength := hedited.length_eq
  refine ⟨front.length, before, x, after, edited ++ (before ++ x :: after) :: rest, ?_, ?_,
    hbefore, hx, ?_, ?_, ?_⟩
  · rw [lint, hlines, hlint]
  · rw [hlines, List.getElem?_append_right (Nat.le_refl _), Nat.sub_self, List.getElem?_cons_zero]
  · rw [hlines, List.length_append, List.length_append, hlength]
  · intro j hj line hline
    rw [hlines, List.getElem?_append_left hj] at hline
    obtain ⟨linted, hlinted, hstep⟩ := exists_getElem?_of_forall₂ hedited hline
    have hunbroken := hfront line (List.mem_of_getElem? hline)
    refine ⟨hunbroken, _, linted, ?_, lintsTo_of_edited hstep hunbroken _⟩
    rw [List.getElem?_append_left (hlength ▸ hj), hlinted]
  · intro j hj
    rw [hlines, List.getElem?_append_right (hlength ▸ hj), List.getElem?_append_right hj, hlength]

/-- A document that was linted has no broken line. -/
theorem unbroken_of_lint {c : Classifier} {file : Option String} {document : Document}
    {results : List (LineResult Range)} (h : (document.lint c file).1 = .ok results) :
    ∀ line ∈ document.lines, Unbroken line := by
  by_contra hlines
  obtain ⟨i, before, x, after, edited, hlint, -⟩ := lint_of_break c file document hlines
  rw [hlint] at h
  cases h

/-- Linting succeeds if and only if no line holds a line break. Every line is classified at its
number as it was in the document, and all of its edits are made, while no other line changes; if
there is a line break, this is so up to the first line that holds one, which is named in the
error. -/
theorem lint_linewise (document : Document) :
    document.lint c file = lintLoop c file document 0 document.lines.length ∧
    ((∃ results, (document.lint c file).1 = .ok results) ↔
      ∀ line ∈ document.lines, ∀ x ∈ line, breaksLine x = false) ∧
    (∀ results last, document.lint c file = (.ok results, last) →
      results.length = document.lines.length ∧ last.lines.length = document.lines.length ∧
      last.ending = document.ending ∧ last.finalNewline = document.finalNewline ∧
      ∀ i line, document.lines[i]? = some line →
        ∃ result linted, results[i]? = some result ∧ last.lines[i]? = some linted ∧
          LintsTo c ⟨file, i⟩ line result linted) ∧
    ∀ e last, document.lint c file = (.error e, last) →
      ∃ i before x after, document.lines[i]? = some (before ++ x :: after) ∧
        (∀ y ∈ before, breaksLine y = false) ∧ breaksLine x = true ∧
        e = .scan (.lineBreak (byteLength before)) ∧
        last.lines.length = document.lines.length ∧
        last.ending = document.ending ∧ last.finalNewline = document.finalNewline ∧
        (∀ j < i, ∀ line, document.lines[j]? = some line →
          (∀ y ∈ line, breaksLine y = false) ∧
          ∃ result linted, last.lines[j]? = some linted ∧
            LintsTo c ⟨file, j⟩ line result linted) ∧
        ∀ j, i ≤ j → last.lines[j]? = document.lines[j]? := by
  refine ⟨lint_eq_lintLoop c file document, ?_⟩
  by_cases h : ∀ line ∈ document.lines, Unbroken line
  · obtain ⟨results, edited, hlint, hresults, hedited, hline⟩ := lint_of_unbroken c file document h
    rw [hlint]
    refine ⟨⟨fun _ => h, fun _ => ⟨results, rfl⟩⟩, ?_, ?_⟩
    · rintro results last ⟨⟩
      exact ⟨hresults, hedited, rfl, rfl, hline⟩
    · rintro e last ⟨⟩
  · obtain ⟨i, before, x, after, edited, hlint, hi, hbefore, hx, hedited, hfront, hrest⟩ :=
      lint_of_break c file document h
    rw [hlint]
    refine ⟨⟨?_, fun hlines => absurd hlines h⟩, ?_, ?_⟩
    · rintro ⟨results, ⟨⟩⟩
    · rintro results last ⟨⟩
    · rintro e last ⟨⟩
      exact ⟨i, before, x, after, hi, hbefore, hx, rfl, hedited, rfl, rfl, hfront, hrest⟩

set_option maxRecDepth 4000 in
/-- A colour in front of a line break is edited, and one behind it is not. -/
theorem lint_linewise_break :
    ∃ (document : Document) (e : DocumentError) (last : Document),
      document.lines = ["SetTextColor #ff000a".toList, "Hide\rShow".toList,
        "SetTextColor #ff000a".toList] ∧
      document.lint ⟨{}, true⟩ none = (.error e, last) ∧
      last.lines = ["SetTextColor 255 0 10".toList, "Hide\rShow".toList,
        "SetTextColor #ff000a".toList] ∧
      ∃ i before x after, document.lines[i]? = some (before ++ x :: after) ∧
        (∀ y ∈ before, breaksLine y = false) ∧ breaksLine x = true ∧
        e = .scan (.lineBreak (byteLength before)) ∧
        last.lines.length = document.lines.length ∧
        last.ending = document.ending ∧ last.finalNewline = document.finalNewline ∧
        (∀ j < i, ∀ line, document.lines[j]? = some line →
          (∀ y ∈ line, breaksLine y = false) ∧
          ∃ result linted, last.lines[j]? = some linted ∧
            LintsTo ⟨{}, true⟩ ⟨none, j⟩ line result linted) ∧
        ∀ j, i ≤ j → last.lines[j]? = document.lines[j]? := by
  have hlint : (⟨["SetTextColor #ff000a".toList, "Hide\rShow".toList,
        "SetTextColor #ff000a".toList], .lf, true⟩ : Document).lint ⟨{}, true⟩ none =
      (.error (.scan (.lineBreak 4)), ⟨["SetTextColor 255 0 10".toList, "Hide\rShow".toList,
        "SetTextColor #ff000a".toList], .lf, true⟩) := by decide
  exact ⟨_, _, _, rfl, hlint, rfl, (lint_linewise ⟨{}, true⟩ none _).2.2.2 _ _ hlint⟩

end Document

end ItemFilter
