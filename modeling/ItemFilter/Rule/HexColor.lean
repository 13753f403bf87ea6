import ItemFilter.Text.Bytes
import ItemFilter.Token

/-!
# Hexadecimal colours

The game reads colours as decimal channels. A colour written as `#` and two hexadecimal digits for
each of three or four channels is expanded to that form.

## Main definitions

* `HexColor.channels?`: the channels of a run of digit pairs
* `HexColor`: an expanded colour and where it stood
* `HexColor.ofToken?`: the expansion of a token
-/

namespace ItemFilter

open Text

/-- A hexadecimal colour and its decimal form. -/
structure HexColor where
  /-- Where the colour stands in the line. -/
  span : Span
  /-- The colour as written, with its `#`. -/
  written : Text
  /-- The channels in decimal, with a space between neighbours. -/
  replacement : Text
  deriving DecidableEq, Repr

namespace HexColor

/-- The value of a hexadecimal digit. -/
def digit? (c : Char) : Option Nat :=
  if c.isDigit then some (c.toNat - '0'.toNat)
  else if 'a' ≤ c && c ≤ 'f' then some (c.toNat - 'a'.toNat + 10)
  else if 'A' ≤ c && c ≤ 'F' then some (c.toNat - 'A'.toNat + 10)
  else none

/-- The value of a pair of hexadecimal digits. A plus sign may stand in place of the first. -/
def pair? (high low : Char) : Option Nat :=
  if high = '+' then digit? low
  else (digit? high).bind fun h => (digit? low).map fun l => 16 * h + l

/-- The values of the pairs that a run of digits is made of. -/
def channels? : Text → Option (List Nat)
  | [] => some []
  | [_] => none
  | high :: low :: digits =>
    (pair? high low).bind fun channel => (channels? digits).map fun rest => channel :: rest

/-- The channels in decimal, with a space between neighbours. -/
def decimalText (channels : List Nat) : Text :=
  [' '].intercalate (channels.map (Nat.toDigits 10))

/-- The expansion of a token that is a colour. -/
def ofToken? (token : Token Text) : Option HexColor :=
  match token.value with
  | '#' :: digits =>
    if byteLength digits = 6 ∨ byteLength digits = 8 then
      (channels? digits).map fun channels => ⟨token.range, token.value, decimalText channels⟩
    else none
  | _ => none

/-- By how many bytes the expansion is longer than the colour as written. -/
def growth (color : HexColor) : Int :=
  (byteLength color.replacement : Int) - byteLength color.written

end HexColor

end ItemFilter
