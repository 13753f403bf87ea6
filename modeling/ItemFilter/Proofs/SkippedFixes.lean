import ItemFilter.Proofs.Linewise
import ItemFilter.Proofs.Substitution

/-!
# Fixes that are skipped

Fixes may be on any lines and may insert text without replacing any, and all fixes that come with
one line are held against the same limit: the first column of the fix applied last. As they are
ordered from right to left, a fix that is skipped starts in front of that column or at it, and ends
behind it. So it shares the byte at that column with the applied fix, if both are on the same line
and the applied fix replaces something there. An insertion shares no byte with any fix, and one that
is applied still stops the fixes around it.

## Main definitions

* `Document.Decision`: what was decided about a fix
* `Document.decisions`, `Document.history`: the decisions about the fixes of a line, and of all
  lines

## Main results

* `Document.applyAll_decisions`, `Document.applyFixes_history`: what is applied is what was decided
* `Document.exists_made_of_skipped`: a skipped fix has the first column of an applied one in it
* `Document.applyFixes_skipped`: so it overlaps that fix, or the fix is an insertion
-/

namespace ItemFilter.Document

open Text

/-! ## Decisions -/

/-- What was decided about a fix when its turn came. -/
structure Decision where
  /-- The fix. -/
  edit : TextEdit Range
  /-- Whether the fix was applied. -/
  made : Bool
  deriving DecidableEq, Repr

/-- The fixes that were applied. -/
def madeEdits (decided : List Decision) : List (TextEdit Range) :=
  (decided.filter Decision.made).map Decision.edit

/-- The decisions about fixes that are ordered from right to left, up to the first one that cannot
be applied. -/
def decisions (limit : Option Nat) (document : Document) : List (TextEdit Range) → List Decision
  | [] => []
  | edit :: edits =>
    if limit.any fun limit => limit < edit.range.stop then
      ⟨edit, false⟩ :: decisions limit document edits
    else
      match document.applyEdit edit with
      | .error _ => []
      | .ok edited => ⟨edit, true⟩ :: decisions (some edit.range.start) edited edits

/-- The decisions about the fixes of line after line. -/
def history (document : Document) : List (LineResult Range) → List (List Decision)
  | [] => []
  | result :: results =>
    let edits := rightToLeft (result.fixes.map Fix.edit)
    decisions none document edits :: history (applyAll none document edits).2 results

@[simp] theorem madeEdits_nil : madeEdits [] = [] := rfl

@[simp] theorem madeEdits_cons_made (edit : TextEdit Range) (decided : List Decision) :
    madeEdits (⟨edit, true⟩ :: decided) = edit :: madeEdits decided := rfl

@[simp] theorem madeEdits_cons_skipped (edit : TextEdit Range) (decided : List Decision) :
    madeEdits (⟨edit, false⟩ :: decided) = madeEdits decided := rfl

theorem madeEdits_append (front back : List Decision) :
    madeEdits (front ++ back) = madeEdits front ++ madeEdits back := by
  rw [madeEdits, List.filter_append, List.map_append]
  rfl

/-- Edits are made one after another. -/
theorem applyEdits_append {document edited : Document} {front : List (TextEdit Range)}
    (h : document.applyEdits front = (.ok (), edited)) (back : List (TextEdit Range)) :
    document.applyEdits (front ++ back) = edited.applyEdits back := by
  induction front generalizing document with
  | nil =>
    obtain rfl : document = edited := congrArg Prod.snd h
    rfl
  | cons edit front ih =>
    rw [applyEdits] at h
    rw [List.cons_append, applyEdits]
    cases hedit : document.applyEdit edit with
    | error e =>
      rw [hedit] at h
      cases h
    | ok next =>
      rw [hedit] at h
      exact ih h

/-- A run that succeeds decides about all of its fixes, and makes those that it has not skipped. -/
theorem applyAll_decisions {limit : Option Nat} {document last : Document}
    {edits : List (TextEdit Range)} {count : Nat}
    (h : applyAll limit document edits = (.ok count, last)) :
    (decisions limit document edits).map Decision.edit = edits ∧
      document.applyEdits (madeEdits (decisions limit document edits)) = (.ok (), last) ∧
      (madeEdits (decisions limit document edits)).length = count := by
  -- Induction on the fixes, the limit and the document changing with each applied one.
  induction edits generalizing limit document count with
  | nil =>
    cases h
    exact ⟨rfl, rfl, rfl⟩
  | cons edit edits ih =>
    rw [applyAll] at h
    rw [decisions]
    by_cases hlimit : (limit.any fun limit => limit < edit.range.stop) = true
    · rw [if_pos hlimit] at h ⊢
      obtain ⟨hedits, hmade, hcount⟩ := ih h
      exact ⟨congrArg (edit :: ·) hedits, hmade, hcount⟩
    · rw [if_neg hlimit] at h ⊢
      cases hedit : document.applyEdit edit with
      | error e =>
        rw [hedit] at h
        cases h
      | ok edited =>
        rw [hedit] at h
        dsimp only at h ⊢
        rcases hrun : applyAll (some edit.range.start) edited edits with ⟨e | more, final⟩
        · rw [hrun] at h
          cases h
        · rw [hrun] at h
          cases h
          obtain ⟨hedits, hmade, hcount⟩ := ih hrun
          refine ⟨congrArg (edit :: ·) hedits, ?_, ?_⟩
          · rw [madeEdits_cons_made, applyEdits, hedit]
            exact hmade
          · rw [madeEdits_cons_made, List.length_cons, hcount]

/-- A call that succeeds decides about the fixes of every line, and makes those that it has not
skipped. -/
theorem applyFixes_history {document last : Document} {results : List (LineResult Range)}
    {count : Nat}
    (h : document.applyFixes (results.map fun result => result.fixes.map Fix.edit) =
      (.ok count, last)) :
    List.Forall₂ (fun decided result =>
        (decided.map Decision.edit).Perm (result.fixes.map Fix.edit))
      (document.history results) results ∧
    document.applyEdits (madeEdits (document.history results).flatten) = (.ok (), last) ∧
    (madeEdits (document.history results).flatten).length = count := by
  -- Induction on the lines, the document changing with each.
  induction results generalizing document count with
  | nil =>
    cases h
    exact ⟨.nil, rfl, rfl⟩
  | cons result results ih =>
    rw [List.map_cons, applyFixes] at h
    rcases hfirst : applyAll none document (rightToLeft (result.fixes.map Fix.edit)) with
      ⟨e | first, edited⟩
    · rw [hfirst] at h
      cases h
    · rw [hfirst] at h
      dsimp only at h
      rcases hmore : edited.applyFixes (results.map fun result => result.fixes.map Fix.edit) with
        ⟨e | more, final⟩
      · rw [hmore] at h
        cases h
      · rw [hmore] at h
        cases h
        obtain ⟨hedits, hmade, hcount⟩ := applyAll_decisions hfirst
        obtain ⟨hedits', hmade', hcount'⟩ := ih hmore
        rw [history, hfirst, List.flatten_cons, madeEdits_append]
        refine ⟨.cons ?_ hedits', ?_, ?_⟩
        · rw [hedits]
          exact rightToLeft_perm _
        · rw [applyEdits_append hmade]
          exact hmade'
        · rw [List.length_append, hcount, hcount']

/-! ## Skipped fixes -/

/-- An edit that was made does not end before it starts. -/
theorem start_le_stop_of_applyEdit {document edited : Document} {edit : TextEdit Range}
    (h : document.applyEdit edit = .ok edited) : edit.range.start ≤ edit.range.stop := by
  by_contra hlt
  have hslice : ∀ line, slice? edit.range.start edit.range.stop line = none := by
    intro line
    rw [slice?, cut?, if_neg hlt]
    rfl
  have hnone : (document.line? edit.range.line).bind
      (slice? edit.range.start edit.range.stop) = none :=
    Option.bind_eq_none_iff.mpr fun line _ => hslice line
  rw [applyEdit, textIn, hnone] at h
  cases h

/-- What the limit of a run says about the fixes that were decided about and those that are left:
one was applied that starts there, and none of those left starts behind it. -/
structure Reached (limit : Nat) (decided : List Decision) (edits : List (TextEdit Range)) :
    Prop where
  /-- A fix that starts at the limit was applied. -/
  exists_made : ∃ other, ⟨other, true⟩ ∈ decided ∧ other.range.start = limit ∧
    other.range.start ≤ other.range.stop
  /-- The fixes that are left start in front of the limit or at it. -/
  start_le : ∀ edit ∈ edits, edit.range.start ≤ limit

/-- The limit stays where it is when a fix is skipped. -/
theorem Reached.skip {limit : Nat} {decided : List Decision} {edit : TextEdit Range}
    {edits : List (TextEdit Range)} (h : Reached limit decided (edit :: edits)) :
    Reached limit (decided ++ [⟨edit, false⟩]) edits := by
  obtain ⟨other, hother, hstart⟩ := h.exists_made
  exact ⟨⟨other, List.mem_append_left _ hother, hstart⟩,
    fun next hnext => h.start_le next (List.mem_cons_of_mem _ hnext)⟩

/-- The limit moves to the first column of a fix that is applied. -/
theorem reached_of_applyEdit {document edited : Document} {edit : TextEdit Range}
    (h : document.applyEdit edit = .ok edited) (decided : List Decision)
    {edits : List (TextEdit Range)}
    (hsorted : ∀ next ∈ edits, next.range.start ≤ edit.range.start) :
    Reached edit.range.start (decided ++ [⟨edit, true⟩]) edits :=
  ⟨⟨edit, List.mem_append_right _ (List.mem_singleton_self _), rfl, start_le_stop_of_applyEdit h⟩,
    hsorted⟩

/-- A skipped fix has the first column of a fix in it that was applied before. -/
theorem exists_made_of_skipped {limit : Option Nat} {document : Document} {decided : List Decision}
    {edits : List (TextEdit Range)} (hlimit : ∀ column ∈ limit, Reached column decided edits)
    (hsorted : edits.Pairwise fun edit other => other.range.start ≤ edit.range.start)
    {before after : List Decision} {edit : TextEdit Range}
    (h : decisions limit document edits = before ++ ⟨edit, false⟩ :: after) :
    ∃ other, ⟨other, true⟩ ∈ decided ++ before ∧
      (edit.range.start ≤ other.range.start ∧ other.range.start < edit.range.stop) ∧
      other.range.start ≤ other.range.stop := by
  -- Induction on the fixes that are left; those that were decided about have reached the limit.
  induction edits generalizing limit document decided before with
  | nil => simp [decisions] at h
  | cons first edits ih =>
    rw [List.pairwise_cons] at hsorted
    rw [decisions] at h
    split at h
    · next hskip =>
      obtain ⟨column, rfl, hstop⟩ : ∃ column, limit = some column ∧ column < first.range.stop := by
        cases limit with
        | none => cases hskip
        | some column => exact ⟨column, rfl, of_decide_eq_true hskip⟩
      have hreached := hlimit column rfl
      rcases List.cons_eq_append_iff.mp h with ⟨rfl, hfirst⟩ | ⟨rest, rfl, hrest⟩
      · -- The fix itself is the one that is skipped.
        obtain ⟨rfl, -⟩ : edit = first ∧ _ := by simpa using hfirst
        obtain ⟨other, hother, rfl, hle⟩ := hreached.exists_made
        exact ⟨other, by simpa using hother,
          ⟨hreached.start_le edit (List.mem_cons_self ..), hstop⟩, hle⟩
      · have hfound := ih (fun column' hcolumn => Option.some.inj hcolumn ▸ hreached.skip)
          hsorted.2 hrest
        rwa [List.append_assoc, List.singleton_append] at hfound
    · split at h
      · simp at h
      · next edited hedit =>
        rcases List.cons_eq_append_iff.mp h with ⟨rfl, hfirst⟩ | ⟨rest, rfl, hrest⟩
        · simp at hfirst
        · have hreached := reached_of_applyEdit hedit decided hsorted.1
          have hfound := ih (fun column hcolumn => Option.some.inj hcolumn ▸ hreached)
            hsorted.2 hrest
          rwa [List.append_assoc, List.singleton_append] at hfound

/-- So it is with the fixes of every line. -/
theorem exists_made_of_mem_history {document : Document} {results : List (LineResult Range)}
    {before after : List Decision} {edit : TextEdit Range}
    (h : before ++ ⟨edit, false⟩ :: after ∈ document.history results) :
    ∃ other, ⟨other, true⟩ ∈ before ∧
      (edit.range.start ≤ other.range.start ∧ other.range.start < edit.range.stop) ∧
      other.range.start ≤ other.range.stop := by
  induction results generalizing document with
  | nil => cases h
  | cons result results ih =>
    rcases List.mem_cons.mp h with h | h
    · have hnone : ∀ column ∈ (none : Option Nat),
          Reached column [] (rightToLeft (result.fixes.map Fix.edit)) := by simp
      exact exists_made_of_skipped hnone (pairwise_rightToLeft _) h.symm
    · exact ih h

/-- Every fix that is not applied has the first column of another fix in it, which came with the
same line and was applied before. If both are on one line they share the byte at that column, unless
the other fix is an insertion. -/
theorem applyFixes_skipped {document last : Document} {results : List (LineResult Range)}
    {count : Nat}
    (h : document.applyFixes (results.map fun result => result.fixes.map Fix.edit) =
      (.ok count, last)) :
    List.Forall₂ (fun decided result =>
        (decided.map Decision.edit).Perm (result.fixes.map Fix.edit))
      (document.history results) results ∧
    document.applyEdits (madeEdits (document.history results).flatten) = (.ok (), last) ∧
    (madeEdits (document.history results).flatten).length = count ∧
    ∀ before edit after, before ++ ⟨edit, false⟩ :: after ∈ document.history results →
      ∃ other, ⟨other, true⟩ ∈ before ∧
        edit.range.start ≤ other.range.start ∧ other.range.start < edit.range.stop ∧
        (other.range.line = edit.range.line →
          edit.Overlaps other ∨ other.range.start = other.range.stop) := by
  obtain ⟨hdecided, hmade, hcount⟩ := applyFixes_history h
  refine ⟨hdecided, hmade, hcount, fun before edit after hskipped => ?_⟩
  obtain ⟨other, hother, ⟨hstart, hstop⟩, hle⟩ := exists_made_of_mem_history hskipped
  refine ⟨other, hother, hstart, hstop, fun _ => ?_⟩
  rcases Nat.eq_or_lt_of_le hle with heq | hlt
  · exact Or.inr heq
  · exact Or.inl ⟨other.range.start, ⟨hstart, hstop⟩, Nat.le_refl _, hlt⟩

/-- The problems in a chain, from the last one to the first. -/
def chainedBack : LineResult Range :=
  { chained with diagnostics := chained.diagnostics.reverse }

/-- Of three fixes in a chain, the middle one is skipped because it overlaps the last one. -/
theorem applyFixes_skipped_chained :
    applyFixes ⟨["abcdef".toList], .lf, true⟩
        ([chainedBack].map fun result => result.fixes.map Fix.edit) =
      (.ok 2, ⟨["xdz".toList], .lf, true⟩) ∧
    ∃ before edit after,
      before ++ ⟨edit, false⟩ :: after ∈ history ⟨["abcdef".toList], .lf, true⟩ [chainedBack] ∧
      ∃ other, ⟨other, true⟩ ∈ before ∧
        edit.range.start ≤ other.range.start ∧ other.range.start < edit.range.stop ∧
        (other.range.line = edit.range.line →
          edit.Overlaps other ∨ other.range.start = other.range.stop) := by
  have hsorted : rightToLeft (chainedBack.fixes.map Fix.edit) = chainedBack.fixes.map Fix.edit :=
    rightToLeft_of_pairwise (by decide)
  have happly : applyFixes ⟨["abcdef".toList], .lf, true⟩
      ([chainedBack].map fun result => result.fixes.map Fix.edit) =
        (.ok 2, ⟨["xdz".toList], .lf, true⟩) := by
    rw [List.map_singleton, applyFixes_singleton, hsorted]
    rfl
  have hskipped : [⟨⟨⟨0, 4, 6⟩, "ef".toList, "z".toList⟩, true⟩] ++
      ⟨⟨⟨0, 2, 5⟩, "cde".toList, "yy".toList⟩, false⟩ ::
      [⟨⟨⟨0, 0, 3⟩, "abc".toList, "x".toList⟩, true⟩] ∈
        history ⟨["abcdef".toList], .lf, true⟩ [chainedBack] := by
    rw [history, hsorted]
    exact List.mem_cons_self ..
  exact ⟨happly, _, _, _, hskipped, (applyFixes_skipped happly).2.2.2 _ _ _ hskipped⟩

/-- A line with an insertion, and a replacement of the text around it. -/
def insertedInside : LineResult Range where
  kind := .empty
  diagnostics := [problemAt 5 5 "" "a", problemAt 3 7 "aaaa" "b"]
  edits := []

/-- A replacement is skipped that shares no byte with any fix, because of an insertion in the text
it replaces. -/
theorem exists_skipped_apart :
    ∃ (document last : Document) (results : List (LineResult Range)) (count : Nat)
      (edit : TextEdit Range),
      document.applyFixes (results.map fun result => result.fixes.map Fix.edit) =
        (.ok count, last) ∧
      ⟨edit, false⟩ ∈ (document.history results).flatten ∧
      ∀ other, ⟨other, true⟩ ∈ (document.history results).flatten → ¬ edit.Overlaps other := by
  have hsorted : rightToLeft (insertedInside.fixes.map Fix.edit) =
      insertedInside.fixes.map Fix.edit := rightToLeft_of_pairwise (by decide)
  have happly : applyFixes ⟨["aaaaaaaa".toList], .lf, true⟩
      ([insertedInside].map fun result => result.fixes.map Fix.edit) =
        (.ok 1, ⟨["aaaaaaaaa".toList], .lf, true⟩) := by
    rw [List.map_singleton, applyFixes_singleton, hsorted]
    rfl
  have hhistory : (history ⟨["aaaaaaaa".toList], .lf, true⟩ [insertedInside]).flatten =
      [⟨⟨⟨0, 5, 5⟩, [], ['a']⟩, true⟩, ⟨⟨⟨0, 3, 7⟩, "aaaa".toList, ['b']⟩, false⟩] := by
    rw [history, hsorted]
    rfl
  refine ⟨_, _, _, _, ⟨⟨0, 3, 7⟩, "aaaa".toList, ['b']⟩, happly, ?_, ?_⟩
  · rw [hhistory]
    exact List.mem_cons_of_mem _ (List.mem_cons_self ..)
  · intro other hother
    rw [hhistory] at hother
    obtain rfl : other = ⟨⟨0, 5, 5⟩, [], ['a']⟩ := by simpa using hother
    rintro ⟨column, -, hle, hlt⟩
    exact absurd hlt (Nat.not_lt.mpr hle)

end ItemFilter.Document
