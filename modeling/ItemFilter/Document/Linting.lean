import ItemFilter.Document
import ItemFilter.Line.Classifier

/-!
# Linting a document

A document is linted line by line, and the edits of a line are made before the next line is looked
at. The counts of what was found make up a report.

## Main definitions

* `Document.lint`: the classified lines, and the document with their edits made
* `Report`: how many lines, errors, warnings and invalid lines there are
-/

namespace ItemFilter

namespace Document

/-- The line after edits of it, as far as they could be made. -/
def editLine (line : Text) : List (TextEdit Range) → Except DocumentError Unit × Text
  | [] => (.ok (), line)
  | edit :: edits =>
    match Text.slice? edit.range.start edit.range.stop line,
        Text.replace? edit.range.start edit.range.stop edit.newText line with
    | some found, some edited =>
      if found = edit.oldText then editLine edited edits
      else (.error (.staleEdit edit.range.line edit.oldText found), line)
    | _, _ => (.error (.outOfRange edit.range), line)

/-- Lints lines that are numbered from `n` on. What could not be linted stays as it was. -/
def lintFrom (c : Classifier) (file : Option String) (n : Nat) :
    List Text → Except DocumentError (List (LineResult Range)) × List Text
  | [] => (.ok [], [])
  | line :: lines =>
    match c.parse ⟨file, n⟩ line with
    | .error e => (.error (.scan e), line :: lines)
    | .ok result =>
      match editLine line result.edits with
      | (.error e, edited) => (.error e, edited :: lines)
      | (.ok (), edited) =>
        let (results, rest) := lintFrom c file (n + 1) lines
        (results.map (result :: ·), edited :: rest)

/-- Lints every line, and makes the edits that come with reading them. -/
def lint (c : Classifier) (file : Option String) (document : Document) :
    Except DocumentError (List (LineResult Range)) × Document :=
  let (results, lines) := lintFrom c file 0 document.lines
  (results, { document with lines })

end Document

/-- The counts of what was found in a document. -/
structure Report where
  /-- The number of lines. -/
  lines : Nat := 0
  /-- The number of errors. -/
  errors : Nat := 0
  /-- The number of warnings. -/
  warnings : Nat := 0
  /-- The number of lines with an error. -/
  invalidLines : Nat := 0
  deriving DecidableEq, Repr

namespace Report

/-- The counts of two documents together. -/
def add (a b : Report) : Report :=
  ⟨a.lines + b.lines, a.errors + b.errors, a.warnings + b.warnings, a.invalidLines + b.invalidLines⟩

instance : Add Report := ⟨add⟩

/-- The counts of one line. -/
def ofResult (result : LineResult Range) : Report :=
  ⟨1, result.errors.length, result.warnings.length, if result.invalid then 1 else 0⟩

/-- The counts of the lines of a document. -/
def ofResults (results : List (LineResult Range)) : Report :=
  results.foldl (fun report result => report + ofResult result) {}

/-- Whether there is an error. -/
def hasErrors (report : Report) : Bool :=
  0 < report.errors

end Report

end ItemFilter
