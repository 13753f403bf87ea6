import ItemFilter.Document

/-!
# Applying fixes

The fixes of one line are applied from right to left, so that no fix moves the text of another. A
fix that reaches into one already applied is skipped. A fix that does not fit the document any more
stops everything, and the fixes applied before it stay.

## Main definitions

* `Document.rightToLeft`: edits ordered by their first column, the last one first
* `Document.applyAll`: the edits of one line, skipping those that overlap
* `Document.applyFixes`: the edits of several lines
-/

namespace ItemFilter.Document

/-- Edits ordered by their first column, the last one first. Edits at one column keep their
order. -/
def rightToLeft (edits : List (TextEdit Range)) : List (TextEdit Range) :=
  edits.mergeSort fun a b => decide (b.range.start ≤ a.range.start)

/-- Applies edits that are ordered from right to left, skipping those that reach beyond the column
`limit`, and counts the applied ones. -/
def applyAll (limit : Option Nat) (document : Document) :
    List (TextEdit Range) → Except DocumentError Nat × Document
  | [] => (.ok 0, document)
  | edit :: edits =>
    if limit.any fun limit => limit < edit.range.stop then applyAll limit document edits
    else
      match document.applyEdit edit with
      | .error e => (.error e, document)
      | .ok edited =>
        let (count, last) := applyAll (some edit.range.start) edited edits
        (count.map (· + 1), last)

/-- Applies the fixes of line after line, and counts the applied ones. -/
def applyFixes (document : Document) :
    List (List (TextEdit Range)) → Except DocumentError Nat × Document
  | [] => (.ok 0, document)
  | edits :: batches =>
    match applyAll none document (rightToLeft edits) with
    | (.error e, edited) => (.error e, edited)
    | (.ok count, edited) =>
      let (more, last) := applyFixes edited batches
      (more.map (count + ·), last)

end ItemFilter.Document
