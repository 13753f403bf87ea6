import ItemFilter.Diagnostic
import ItemFilter.Keyword
import ItemFilter.Token

/-!
# Classified lines

A line is a comment, empty, a block, a rule or none of these, and carries the problems found in it
and the edits made while it was read. As with diagnostics, places are spans until the line is put
at a location.

## Main definitions

* `LineKind`: what a line is, with what was read from it
* `LineResult`: a classified line
* `Location`, `LineResult.place`: a line of a file, and a classified line put there
-/

namespace ItemFilter

open Text

/-- A line that opens a block. -/
structure BlockLine (ρ : Type) where
  /-- The keyword and its place. -/
  keyword : Located ρ Keyword
  /-- The line without the white space at its ends. -/
  range : ρ
  /-- The body of a comment behind the keyword, and the place of the comment. -/
  comment : Option (Located ρ Text)
  deriving DecidableEq, Repr

/-- A line that holds a rule. -/
structure RuleLine (ρ : Type) where
  /-- The keyword and its place. -/
  keyword : Located ρ Keyword
  /-- The line without the white space at its ends. -/
  range : ρ
  /-- What kind of rule it is. -/
  category : Category
  /-- The operator in front of the arguments. -/
  operator : Option (Located ρ Operator)
  /-- The accepted arguments. -/
  values : List (Located ρ Value)
  /-- The body of a comment behind the arguments, and the place of the comment. -/
  comment : Option (Located ρ Text)
  deriving DecidableEq, Repr

/-- What a line is. -/
inductive LineKind (ρ : Type) where
  /-- A comment, with its body. -/
  | comment (body : Located ρ Text)
  /-- Nothing but white space. -/
  | empty
  /-- The start of a block. -/
  | block (line : BlockLine ρ)
  /-- A condition or an action. -/
  | rule (line : RuleLine ρ)
  /-- A line without a keyword, with its text. -/
  | unknown (text : Located ρ Text)
  deriving DecidableEq, Repr

/-- A line with what was found in it. -/
structure LineResult (ρ : Type) where
  /-- What the line is. -/
  kind : LineKind ρ
  /-- The problems of the line, in the order they were found. -/
  diagnostics : List (Diagnostic ρ) := []
  /-- The edits made while the line was read. -/
  edits : List (TextEdit ρ) := []
  deriving DecidableEq, Repr

variable {ρ σ : Type}

/-- The block line at another kind of place. -/
def BlockLine.map (f : ρ → σ) (line : BlockLine ρ) : BlockLine σ :=
  { keyword := line.keyword.mapRange f
    range := f line.range
    comment := line.comment.map (Located.mapRange f) }

namespace RuleLine

/-- The rule line at another kind of place. -/
def map (f : ρ → σ) (line : RuleLine ρ) : RuleLine σ :=
  { keyword := line.keyword.mapRange f
    range := f line.range
    category := line.category
    operator := line.operator.map (Located.mapRange f)
    values := line.values.map (Located.mapRange f)
    comment := line.comment.map (Located.mapRange f) }

/-- The numbers among the accepted arguments. -/
def numbers (line : RuleLine ρ) : List Int :=
  line.values.filterMap fun value => value.value.number?

end RuleLine

namespace LineKind

/-- The line at another kind of place. -/
def map (f : ρ → σ) : LineKind ρ → LineKind σ
  | comment body => comment (body.mapRange f)
  | empty => empty
  | block line => block (line.map f)
  | rule line => rule (line.map f)
  | unknown text => unknown (text.mapRange f)

/-- The name of a kind of line. -/
def name : LineKind ρ → String
  | comment _ => "comment"
  | empty => "empty"
  | block _ => "block"
  | rule _ => "rule"
  | unknown _ => "unknown"

/-- The keyword that was recognised. -/
def keyword? : LineKind ρ → Option Keyword
  | block line => some line.keyword.value
  | rule line => some line.keyword.value
  | _ => none

end LineKind

/-- A line of a file. -/
structure Location where
  /-- The file, if the line comes from one. -/
  file : Option String := none
  /-- The number of the line, from zero. -/
  line : Nat := 0
  deriving DecidableEq, Repr

namespace LineResult

/-- Whether one of the problems is an error. -/
def invalid (result : LineResult ρ) : Bool :=
  result.diagnostics.any Diagnostic.isError

/-- The errors. -/
def errors (result : LineResult ρ) : List (Diagnostic ρ) :=
  result.diagnostics.filter Diagnostic.isError

/-- The warnings. -/
def warnings (result : LineResult ρ) : List (Diagnostic ρ) :=
  result.diagnostics.filter Diagnostic.isWarning

/-- The fixes that the problems suggest. -/
def fixes (result : LineResult ρ) : List (Fix ρ) :=
  result.diagnostics.filterMap Diagnostic.fix

/-- The result at another kind of place, in the given file. -/
def map (f : ρ → σ) (file : Option String) (result : LineResult ρ) : LineResult σ :=
  { kind := result.kind.map f
    diagnostics := result.diagnostics.map (Diagnostic.map f file)
    edits := result.edits.map (TextEdit.map f) }

/-- The result put at a line of a file. -/
def place (location : Location) (result : LineResult Span) : LineResult Range :=
  result.map (Range.on location.line) location.file

end LineResult

/-- The body of a comment: what stands behind its `#`, without white space at the ends. -/
def commentBody (comment : Text) : Text :=
  match trim comment with
  | '#' :: body => trim body
  | _ => trim comment

end ItemFilter
