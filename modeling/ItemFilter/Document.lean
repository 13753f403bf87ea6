import ItemFilter.Cursor
import ItemFilter.Diagnostic
import ItemFilter.Text.Split

/-!
# Documents

A document is the text of a filter, taken apart into lines. Its line ending is that of its first
line break. Edits are checked before they are made: they have to lie within their line, and the
text they replace has to be the text they expect.

## Main definitions

* `Document`: lines, a line ending, and whether the last line is ended
* `Document.parse`, `Document.contents`: from text to a document and back
* `Document.textIn`, `Document.setText`: the text at a range, read and replaced
* `Document.applyEdit`: a checked edit
-/

namespace ItemFilter

open Text

/-- How lines are ended. -/
inductive LineEnding where
  | lf
  | crlf
  deriving DecidableEq, Repr

/-- The characters of a line ending. -/
def LineEnding.characters : LineEnding → Text
  | lf => ['\n']
  | crlf => ['\r', '\n']

/-- Why a document cannot be linted, edited or saved. -/
inductive DocumentError where
  /-- The document has no file to be saved to. -/
  | noPath
  /-- A range that is no part of the document. -/
  | outOfRange (range : Range)
  /-- An edit of a line that does not hold the expected text any more. -/
  | staleEdit (line : Nat) (expected found : Text)
  /-- A line that cannot be scanned. -/
  | scan (error : ScanError)
  deriving DecidableEq, Repr

/-- The wording of a document error. -/
def DocumentError.message : DocumentError → String
  | .noPath => "document has no file path"
  | .outOfRange range => s!"edit range {range.start}..{range.stop} is outside line {range.line}"
  | .staleEdit line expected found =>
    s!"stale edit on line {line}: expected '{String.ofList expected}', " ++
      s!"found '{String.ofList found}'"
  | .scan error => error.message

/-- A filter as lines. -/
structure Document where
  /-- The lines, without their endings. -/
  lines : List Text
  /-- The ending of every line. -/
  ending : LineEnding
  /-- Whether the last line is ended. -/
  finalNewline : Bool
  deriving DecidableEq, Repr

namespace Document

/-- The ending of the first line of a text, given the character before it. -/
def endingAfter (previous : Option Char) : Text → LineEnding
  | [] => .lf
  | c :: text =>
    if c = '\n' then if previous = some '\r' then .crlf else .lf
    else endingAfter (some c) text

/-- Takes a text apart into lines. -/
def parse (contents : Text) : Document :=
  { lines := Text.lines contents
    ending := endingAfter none contents
    finalNewline := contents.getLast? == some '\n' }

/-- The text of a document. -/
def contents (document : Document) : Text :=
  joinWith document.ending.characters document.lines ++
    if document.finalNewline && !document.lines.isEmpty then document.ending.characters else []

/-- The text of a line. -/
def line? (document : Document) (n : Nat) : Option Text :=
  document.lines[n]?

/-- The text at a range. -/
def textIn (document : Document) (range : Range) : Except DocumentError Text :=
  match (document.line? range.line).bind (slice? range.start range.stop) with
  | some text => .ok text
  | none => .error (.outOfRange range)

/-- The document with the text at a range replaced. -/
def setText (document : Document) (range : Range) (new : Text) : Except DocumentError Document :=
  match (document.line? range.line).bind (replace? range.start range.stop new) with
  | some line => .ok { document with lines := document.lines.set range.line line }
  | none => .error (.outOfRange range)

/-- The document after an edit. The range has to exist, and to hold the text the edit expects. -/
def applyEdit (document : Document) (edit : TextEdit Range) : Except DocumentError Document := do
  let found ← document.textIn edit.range
  if found = edit.oldText then document.setText edit.range edit.newText
  else throw (.staleEdit edit.range.line edit.oldText found)

end Document

end ItemFilter
