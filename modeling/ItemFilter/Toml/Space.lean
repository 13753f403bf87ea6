import ItemFilter.Text.Blank

/-!
# Blanks, comments and line breaks

What may stand between the parts of a TOML document. Blanks are spaces and tabs, a line break is a
line feed or a carriage return with a line feed, and a comment goes up to the end of its line.

## Main definitions

* `Toml.skipBlanks`: the text behind blanks
* `Toml.lineBreak?`, `Toml.lineEnd?`: the text behind a line break, and behind the end of a line
* `Toml.skipLines`: the text behind blanks, comments and line breaks
-/

namespace ItemFilter.Toml

/-- Whether a character is a blank. -/
def isBlank (c : Char) : Bool :=
  c == ' ' || c == '\t'

/-- The text behind blanks. -/
def skipBlanks (text : Text) : Text :=
  text.dropWhile isBlank

/-- Whether a character may stand in a comment or, as it is, in a string. Control characters may
not, but for the tab. -/
def isPlain (c : Char) : Bool :=
  c == '\t' || (0x20 ≤ c.toNat && c.toNat != 0x7F)

/-- The text behind a line break. -/
def lineBreak? : Text → Option Text
  | '\n' :: text => some text
  | '\r' :: '\n' :: text => some text
  | _ => none

/-- The text behind a comment, if there is one. -/
def skipComment : Text → Text
  | '#' :: text => text.dropWhile isPlain
  | text => text

/-- The text behind the end of a line, which may have a comment in front of it. -/
def lineEnd? (text : Text) : Option Text :=
  match skipComment (skipBlanks text) with
  | [] => some []
  | rest => lineBreak? rest

/-- The text behind blanks, line breaks, and comments that end with a line break. -/
def skipLinesWith : Nat → Text → Text
  | 0, text => text
  | fuel + 1, text =>
    match lineBreak? (skipComment (skipBlanks text)) with
    | some rest => skipLinesWith fuel rest
    | none => skipBlanks text

/-- The text behind blanks, line breaks, and comments that end with a line break. -/
def skipLines (text : Text) : Text :=
  skipLinesWith (text.length + 1) text

end ItemFilter.Toml
