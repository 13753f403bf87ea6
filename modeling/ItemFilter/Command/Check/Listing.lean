import ItemFilter.Command.Check
import ItemFilter.Line.Encoding
import ItemFilter.Style

/-!
# Listing what a check found

The problems of the checked files are listed with one line for each, file by file, and a summary at
the end. Details of a problem follow on lines of their own. The same can be had as JSON.

## Main definitions

* `Diagnostic.line`, `Diagnostic.detailLines`: a problem as lines
* `listingWith`, `listing`: what a check found, as lines of pieces, with given counts or its own
* `listingText`: the listing as text
* `checkJson`: what a check found, as JSON
-/

namespace ItemFilter

/-- A number of things, with the noun for one of them. -/
def counted (n : Nat) (noun : String) : String :=
  s!"{n} {noun}" ++ if n = 1 then "" else "s"

/-- The colour of a severity. -/
def Severity.color : Severity → Style
  | error => .red
  | warning => .yellow

namespace Diagnostic

/-- Where a problem is: the path, the line and the column, the latter two counted from one. -/
def location (path : String) (range : Range) : String :=
  s!"{path}:{range.line + 1}:{range.start + 1}"

/-- A problem of a file as a line. -/
def line (path : String) (diagnostic : Diagnostic Range) : List Piece :=
  [⟨location path diagnostic.range, [.bold]⟩, ⟨": ", []⟩,
    ⟨diagnostic.severity.name, [.bold, diagnostic.severity.color]⟩,
    ⟨": " ++ diagnostic.excerpt, []⟩] ++
  match diagnostic.fix with
  | some fix => [⟨" ", []⟩, ⟨s!"[fix: {fix.title}]", [.dimmed]⟩]
  | none => []

/-- A line of a description, set in. Empty lines stay empty. -/
def setIn (line : Text) : String :=
  if line.isEmpty then "" else "    " ++ String.ofList line

/-- The description of a problem, and where more can be read, line by line. -/
def detailLines (diagnostic : Diagnostic Range) : List (List Piece) :=
  let description := match diagnostic.description with
    | some text => (Text.lines text.toList).map fun line => [⟨setIn line, []⟩]
    | none => []
  let page := match diagnostic.page with
    | some page => [[⟨"    see " ++ page.address, []⟩]]
    | none => []
  description ++ page

end Diagnostic

/-- The problems of a file, line by line. Warnings are left out of a quiet listing, and details are
part of a verbose one. -/
def CheckedFile.lines (flags : Flags) (file : CheckedFile) : List (List Piece) :=
  let shown := file.diagnostics.filter fun d => !flags.quiet || d.isError
  shown.flatMap fun d =>
    d.line file.path :: if flags.verbose then d.detailLines else []

/-- The summary of a check with the given counts. -/
def summaryText (total : Report) (files : List CheckedFile) : String :=
  let fixed := files.foldl (fun count file => count + file.fixed) 0
  "Checked " ++ counted files.length "file" ++ ": " ++ counted total.errors "error" ++ ", " ++
    counted total.warnings "warning" ++
    if 0 < fixed then ", " ++ counted fixed "fix" ++ " applied" else ""

/-- The summary of a check as a line. -/
def summaryLine (total : Report) (files : List CheckedFile) : List Piece :=
  [⟨summaryText total files, [if total.hasErrors then .red else .green]⟩]

/-- What a check found, with the given counts in the summary, as lines of pieces. A quiet listing
has no summary. -/
def listingWith (flags : Flags) (total : Report) (files : List CheckedFile) : List (List Piece) :=
  files.flatMap (CheckedFile.lines flags) ++ if flags.quiet then [] else [summaryLine total files]

/-- What a check found, as lines of pieces. -/
def listing (flags : Flags) (files : List CheckedFile) : List (List Piece) :=
  listingWith flags (totalReport files) files

/-- Lines of pieces as text. -/
def linesText (colors : Bool) (lines : List (List Piece)) : String :=
  String.join (lines.map fun pieces => showPieces colors pieces ++ "\n")

/-- What a check found, as text. -/
def listingText (flags : Flags) (colors : Bool) (files : List CheckedFile) : String :=
  linesText colors (listing flags files)

open Json

/-- Counts as an object. -/
def Report.toJson (report : Report) : Json :=
  object
    [("lines", ofCount report.lines), ("errors", ofCount report.errors),
     ("warnings", ofCount report.warnings), ("invalid_lines", ofCount report.invalidLines)]

/-- A checked file as an object. -/
def CheckedFile.toJson (file : CheckedFile) : Json :=
  object
    [("path", string file.path), ("diagnostics", array (file.diagnostics.map Diagnostic.toJson)),
     ("report", file.report.toJson), ("fixed", ofCount file.fixed), ("saved", boolean file.saved)]

/-- What a check found, as an object. -/
def checkJson (files : List CheckedFile) : Json :=
  object
    [("files", array (files.map CheckedFile.toJson)), ("summary", (totalReport files).toJson)]

end ItemFilter
