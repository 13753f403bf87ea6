/-!
# Lines of text and white space

A line is a list of characters. White space is the Unicode property `White_Space`, and trimming
takes it off either end.

## Main definitions

* `Text`: a piece of a line
* `isBlank`: the property `White_Space`
* `trimStart`, `trimEnd`, `trim`: a text without the white space at its ends
-/

namespace ItemFilter

/-- A piece of text, character by character. -/
abbrev Text := List Char

namespace Text

/-- The Unicode property `White_Space`. -/
def isBlank (c : Char) : Bool :=
  let n := c.toNat
  (0x9 ≤ n && n ≤ 0xD) || n == 0x20 || n == 0x85 || n == 0xA0 || n == 0x1680 ||
    (0x2000 ≤ n && n ≤ 0x200A) || n == 0x2028 || n == 0x2029 || n == 0x202F || n == 0x205F ||
    n == 0x3000

/-- The text without its leading white space. -/
def trimStart (text : Text) : Text :=
  text.dropWhile isBlank

/-- The text without its trailing white space. -/
def trimEnd (text : Text) : Text :=
  (text.reverse.dropWhile isBlank).reverse

/-- The text without the white space at both ends. -/
def trim (text : Text) : Text :=
  trimEnd (trimStart text)

/-- The white space that `trimStart` takes off. -/
def leading (text : Text) : Text :=
  text.takeWhile isBlank

/-- Whether a text holds nothing but white space. -/
def allBlank (text : Text) : Bool :=
  text.all isBlank

/-- The leading white space and the rest make up the text. -/
theorem leading_append_trimStart (text : Text) : leading text ++ trimStart text = text :=
  List.takeWhile_append_dropWhile

end Text

end ItemFilter
