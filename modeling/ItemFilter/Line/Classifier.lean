import ItemFilter.Keyword.Suggestion
import ItemFilter.Line
import ItemFilter.Rule

/-!
# The classifier

Each line is classified on its own, from its first word. Lines that are no comment, no block and no
rule are reported as unknown, with the keyword that may have been meant.

## Main definitions

* `Classifier`: a catalog, and whether warnings are wanted
* `Classifier.classify`: a line with what was found in it
* `Classifier.parse`: the same at a line of a file, from the text of the line
-/

namespace ItemFilter

open Text

/-- What the classification of a line depends on besides the line. -/
structure Classifier where
  /-- The names that rules may use. -/
  catalog : Catalog
  /-- Whether text ignored by the game is warned about. -/
  warnings : Bool := true
  deriving DecidableEq, Repr

namespace Classifier

/-- A line that does not start with a word. -/
def unreadableKeyword (span : Span) : Diagnostic Span :=
  { severity := .error
    range := span
    excerpt := "Unreadable keyword, likely due to a stray character."
    page := some .guide }

/-- A line whose first word is no keyword. A keyword that may have been meant is named, but no fix
is offered, since another keyword can change what the filter does. -/
def unknownKeyword (word : Token Text) : Diagnostic Span :=
  { severity := .error
    range := word.range
    excerpt := "Unknown filter keyword."
    description := (Keyword.suggest? word.value).map fun keyword =>
      s!"Did you mean '{keyword.name}'?"
    page := some .guide }

/-- A comment that was read from a line, reduced to its body. -/
def trailing (comment : Option (Token Text)) : Option (Token Text) :=
  comment.map (Located.map commentBody)

/-- A line that opens a block, read from behind its keyword. -/
def blockLine (c : Classifier) (keyword : Token Keyword) (cursor : Cursor) : LineResult Span :=
  let (outcome, cursor) := Rule.block keyword.value c.warnings cursor
  { kind := .block ⟨keyword, cursor.content, trailing outcome.comment⟩
    diagnostics := outcome.diagnostics
    edits := outcome.edits }

/-- A line that holds a rule, read from behind its keyword. -/
def ruleLine (c : Classifier) (keyword : Token Keyword) (category : Category)
    (arguments : ArgumentRule) (cursor : Cursor) : LineResult Span :=
  let (outcome, cursor) := Rule.read c.catalog keyword.value arguments cursor
  { kind := .rule
      { keyword
        range := cursor.content
        category
        operator := outcome.operator
        values := outcome.values
        comment := trailing outcome.comment }
    diagnostics := outcome.diagnostics
    edits := outcome.edits }

/-- A line that is nothing known, for the reason given. -/
def unknownLine (cursor : Cursor) (reason : Diagnostic Span) : LineResult Span :=
  { kind := .unknown ⟨trim cursor.text, cursor.content⟩
    diagnostics := [reason] }

/-- Classifies a line, from a cursor at its start. -/
def classify (c : Classifier) (start : Cursor) : LineResult Span :=
  if start.isCommented then
    { kind := .comment ⟨commentBody start.text, start.content⟩ }
  else if start.isEmpty then
    { kind := .empty }
  else
    match start.word with
    | (none, cursor) =>
      unknownLine cursor (unreadableKeyword ⟨cursor.content.start, cursor.length⟩)
    | (some word, cursor) =>
      match Keyword.ofName? word.value with
      | none => unknownLine cursor (unknownKeyword word)
      | some keyword =>
        match keyword.kind with
        | .block => c.blockLine ⟨keyword, word.range⟩ cursor
        | .rule category arguments => c.ruleLine ⟨keyword, word.range⟩ category arguments cursor

/-- Classifies the text of a line at its location. -/
def parse (c : Classifier) (location : Location) (text : Text) :
    Except ScanError (LineResult Range) :=
  (Cursor.ofText text).map fun start => (c.classify start).place location

end Classifier

end ItemFilter
