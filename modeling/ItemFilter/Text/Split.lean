import ItemFilter.Text.Blank

/-!
# Lines and separated pieces

Two ways to take a text apart: into lines, where a line feed ends a line and takes a carriage
return directly before it along, and at a separator.

## Main definitions

* `lines`: the lines of a text, without their ends
* `pieces`: the parts of a text between separators
* `joinWith`: texts put together with a separator between them
-/

namespace ItemFilter.Text

/-- A line kept in reverse, without a carriage return at its end. -/
def dropReturn : Text → Text
  | '\r' :: line => line
  | line => line

/-- The lines of a text whose first line already holds `line`, kept in reverse. -/
def linesAfter (line : Text) : Text → List Text
  | [] => if line.isEmpty then [] else [line.reverse]
  | c :: text =>
    if c = '\n' then (dropReturn line).reverse :: linesAfter [] text
    else linesAfter (c :: line) text

/-- The lines of a text. A line feed ends a line, a carriage return right before it belongs to
the end, and a last line without a line feed keeps every character. -/
def lines (text : Text) : List Text :=
  linesAfter [] text

/-- The parts of a text between occurrences of a separator. -/
def pieces (separator : Char) : Text → List Text
  | [] => [[]]
  | c :: text =>
    if c = separator then [] :: pieces separator text
    else
      match pieces separator text with
      | [] => [[c]]
      | piece :: rest => (c :: piece) :: rest

/-- Texts put together with a separator between neighbours. -/
def joinWith (separator : Text) : List Text → Text
  | [] => []
  | [text] => text
  | text :: next :: rest => text ++ separator ++ joinWith separator (next :: rest)

end ItemFilter.Text
