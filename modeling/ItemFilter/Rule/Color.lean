import ItemFilter.Rule.HexColor
import ItemFilter.Rule.Number

/-!
# Rules with colours

A colour is three or four channels. A hexadecimal colour is expanded in the line first, so that the
channels are then read from the line as it will be.

## Main definitions

* `Rule.expandHex`: the line with a hexadecimal colour expanded
* `Rule.color`: the rule
-/

namespace ItemFilter.Rule

open Outcome

/-- The values a channel can have. -/
def channelBounds : Bounds := ⟨0, 255⟩

/-- Expands the hexadecimal colour that comes next, if there is one, and goes back to the start of
its expansion. The edit that was made comes with the cursor. -/
def expandHex (cursor : Cursor) : List (TextEdit Span) × Cursor :=
  match cursor.hex with
  | (some token, next) =>
    match HexColor.ofToken? token with
    | some color =>
      ([⟨color.span, color.written, color.replacement⟩], next.splice color.span color.replacement)
    | none => ([], next)
  | (none, next) => ([], next)

/-- A hexadecimal colour, or three or four channels. -/
def color (keyword : Keyword) (cursor : Cursor) : Outcome × Cursor :=
  withEquality keyword cursor fun operator cursor =>
    let (edits, cursor) := expandHex cursor
    let outcome : Outcome := { operator, edits }
    let (numbers, cursor) := cursor.numbers 4
    if numbers.length < 3 then
      (outcome.report (badFormat keyword "<Red> <Green> <Blue> [Alpha]" .actions cursor), cursor)
    else
      let channels := numbers.map fun n => (n, channelBounds)
      captureComment (checkNumbers keyword outcome channels) cursor

end ItemFilter.Rule
