import ItemFilter.Text.Bytes
import ItemFilter.Span

/-!
# Diagnostics

A diagnostic is a problem at a place of a line, with a short text, and possibly a longer one, a page
to read and a fix. A place is a span while a line is looked at on its own and a range once the line
has a number, so all of these are families over the kind of place.

## Main definitions

* `TextEdit`: a replacement that knows the text it replaces
* `Fix`: a suggested edit with a title
* `Diagnostic`: a problem at a place
* `Diagnostic.place`: a problem of a line, moved to a line of a file
* `Fix.commentOut`: the fix that turns the end of a line into a comment
-/

namespace ItemFilter

open Text

/-- How serious a problem is. -/
inductive Severity where
  /-- The game rejects the filter. -/
  | error
  /-- The game accepts the line, but not as it was meant. -/
  | warning
  deriving DecidableEq, Repr

/-- The name of a severity. -/
def Severity.name : Severity → String
  | error => "error"
  | warning => "warning"

/-- The pages that explain filters. -/
inductive Page where
  /-- The page on filters as such. -/
  | overview
  /-- The section on conditions. -/
  | conditions
  /-- The section on actions. -/
  | actions
  /-- The guide on how filters are built. -/
  | guide
  deriving DecidableEq, Repr

/-- The address of a page. -/
def Page.address : Page → String
  | overview => "http://pathofexile.gamepedia.com/Item_filter"
  | conditions => "http://pathofexile.gamepedia.com/Item_filter#Conditions"
  | actions => "http://pathofexile.gamepedia.com/Item_filter#Actions"
  | guide => "http://pathofexile.gamepedia.com/Item_filter_guide"

/-- The replacement of the text at a place by another. -/
structure TextEdit (ρ : Type) where
  /-- The place. -/
  range : ρ
  /-- The text expected there. -/
  oldText : Text
  /-- The text to put there. -/
  newText : Text
  deriving DecidableEq, Repr

/-- An edit offered to the reader of a diagnostic. -/
structure Fix (ρ : Type) where
  /-- What the fix does. -/
  edit : TextEdit ρ
  /-- What the fix is called. -/
  title : String
  deriving DecidableEq, Repr

/-- A problem at a place. -/
structure Diagnostic (ρ : Type) where
  /-- How serious the problem is. -/
  severity : Severity
  /-- The file of the line, if it has one. -/
  file : Option String := none
  /-- The place of the problem. -/
  range : ρ
  /-- The problem in short. -/
  excerpt : String
  /-- The problem at length. -/
  description : Option String := none
  /-- A page that explains the matter. -/
  page : Option Page := none
  /-- A way to mend it. -/
  fix : Option (Fix ρ) := none
  deriving DecidableEq, Repr

variable {ρ σ : Type}

/-- The edit at another kind of place. -/
def TextEdit.map (f : ρ → σ) (edit : TextEdit ρ) : TextEdit σ :=
  ⟨f edit.range, edit.oldText, edit.newText⟩

/-- The fix at another kind of place. -/
def Fix.map (f : ρ → σ) (fix : Fix ρ) : Fix σ :=
  ⟨fix.edit.map f, fix.title⟩

namespace Diagnostic

/-- The diagnostic at another kind of place, in the given file. -/
def map (f : ρ → σ) (file : Option String) (diagnostic : Diagnostic ρ) : Diagnostic σ :=
  { severity := diagnostic.severity
    file
    range := f diagnostic.range
    excerpt := diagnostic.excerpt
    description := diagnostic.description
    page := diagnostic.page
    fix := diagnostic.fix.map (Fix.map f) }

/-- Whether the problem is an error. -/
def isError (diagnostic : Diagnostic ρ) : Bool :=
  diagnostic.severity == .error

/-- Whether the problem is a warning. -/
def isWarning (diagnostic : Diagnostic ρ) : Bool :=
  diagnostic.severity == .warning

end Diagnostic

/-- The title of every fix that turns text into a comment. -/
def commentTitle : String :=
  "Comment This Text"

/-- The fix that puts a comment sign in front of the text at a span. A span that is no part of the
line counts as empty text. -/
def Fix.commentOut (line : Text) (span : Span) : Fix Span :=
  let oldText := (slice? span.start span.stop line).getD []
  ⟨⟨span, oldText, ' ' :: '#' :: oldText⟩, commentTitle⟩

end ItemFilter
