import ItemFilter.Text.Blank
import ItemFilter.Text.CaseData

/-!
# Lower case

Full Unicode lower-casing of a text. Every character has a lower-case form of its own but for two:
the dotted capital I becomes two characters, and a capital sigma becomes a final sigma where it
ends a word.

## Main definitions

* `lowerChar`: the lower-case form of one character on its own
* `cased`, `caseIgnorable`: the properties that find the letters around a sigma
* `lowercase`: the lower-case form of a text
-/

namespace ItemFilter.Text

/-- The property `Cased`. -/
def cased (c : Char) : Bool :=
  inRanges casedRanges c.toNat

/-- The property `Case_Ignorable`. -/
def caseIgnorable (c : Char) : Bool :=
  inRanges caseIgnorableRanges c.toNat

/-- The lower-case form of a character that stands alone. -/
def lowerChar (c : Char) : Text :=
  let n := c.toNat
  if n < 0x80 then [c.toLower]
  else if n = 0x130 then ['i', '\u0307']
  else
    match lowerRuns.find? fun run => run.contains n with
    | some run => [Char.ofNat (n + run.delta).toNat]
    | none => [c]

/-- Whether the nearest character that is not ignorable is cased. -/
def nextIsCased (text : Text) : Bool :=
  match text.dropWhile caseIgnorable with
  | c :: _ => cased c
  | [] => false

/-- The lower-case form of `text` after the characters `before`, the nearest first. -/
def lowercaseAfter (before : Text) : Text → Text
  | [] => []
  | c :: text =>
    let lower :=
      if c = 'Σ' then
        if nextIsCased before && !nextIsCased text then ['ς'] else ['σ']
      else lowerChar c
    lower ++ lowercaseAfter (c :: before) text

/-- The lower-case form of a text. -/
def lowercase (text : Text) : Text :=
  lowercaseAfter [] text

end ItemFilter.Text
