import ItemFilter.Json
import ItemFilter.Text.Split

/-!
# Spelling strings in TOML

There are four ways to write a string, and the plainest one that needs no escapes is taken: between
double quotes, between single quotes, or between three quotes of either kind. A string that none of
them can hold as it is gets escapes.

## Main definitions

* `Toml.longestRun`: how often a quote is repeated without a break
* `Toml.spellString`: a string as it is written
* `Toml.spellStrings`: a list of strings as it is written
-/

namespace ItemFilter.Toml

/-- The longest run of a character, in a text that follows `run` of it. -/
def longestRunAfter (quote : Char) (run : Nat) : Text → Nat
  | [] => run
  | c :: text =>
    if c = quote then longestRunAfter quote (run + 1) text
    else max run (longestRunAfter quote 0 text)

/-- The longest run of a character in a text. -/
def longestRun (quote : Char) (text : Text) : Nat :=
  longestRunAfter quote 0 text

/-- Whether a character cannot stand in a string as it is, whatever its quotes. -/
def needsCode (c : Char) : Bool :=
  (c.toNat < 0x20 && c != '\t' && c != '\n') || c.toNat == 0x7F

/-- The upper-case hexadecimal digit of a number below sixteen. -/
def upperDigit (n : Nat) : Char :=
  (Json.hexDigit n).toUpper

/-- A character of a string with escapes, other than a double quote. A line feed is escaped unless
the string may have line breaks. -/
def spellChar (breaks : Bool) (c : Char) : Text :=
  if c.toNat = 0x8 then ['\\', 'b']
  else if c = '\t' then ['\\', 't']
  else if c = '\n' then if breaks then ['\n'] else ['\\', 'n']
  else if c.toNat = 0xC then ['\\', 'f']
  else if c = '\r' then ['\\', 'r']
  else if c = '\\' then ['\\', '\\']
  else if c.toNat < 0x20 || c.toNat = 0x7F then
    ['\\', 'u', '0', '0', upperDigit (c.toNat / 16), upperDigit (c.toNat % 16)]
  else [c]

/-- The body of a string with escapes, behind `run` double quotes. At most `allowed` double quotes
may follow one another, and none if the string may have no line breaks. -/
def spellBody (breaks : Bool) (run : Nat) : Text → Text
  | [] => []
  | c :: text =>
    if c = '"' then
      if run < (if breaks then 2 else 0) then '"' :: spellBody breaks (run + 1) text
      else '\\' :: '"' :: spellBody breaks 0 text
    else
      let spelled := spellChar breaks c
      spelled ++ spellBody breaks 0 text

/-- What stands in front of a string of several lines. The first line break is not part of it. -/
def opening (quote : Char) (text : Text) : Text :=
  List.replicate 3 quote ++ if text.contains '\n' then ['\n'] else []

/-- A string as it is written. -/
def spellString (text : Text) : Text :=
  let codes := text.any needsCode
  let breaks := text.contains '\n'
  let plain := !codes && !text.contains '\\'
  let doubles := longestRun '"' text
  let singles := longestRun '\'' text
  let escaped := spellBody true 0 text
  if plain && !breaks && doubles = 0 then ['"'] ++ spellBody false 0 text ++ ['"']
  else if !codes && !breaks && singles = 0 then ['\''] ++ text ++ ['\'']
  else if plain && doubles ≤ 2 then opening '"' text ++ escaped ++ List.replicate 3 '"'
  else if !codes && singles ≤ 2 then opening '\'' text ++ text ++ List.replicate 3 '\''
  else if breaks then opening '"' text ++ escaped ++ List.replicate 3 '"'
  else ['"'] ++ spellBody false 0 text ++ ['"']

/-- A list of strings as it is written: a single one in brackets, several with a line for each. -/
def spellStrings : List Text → Text
  | [] => "[]".toList
  | [text] => ['['] ++ spellString text ++ [']']
  | texts =>
    "[\n".toList ++ texts.flatMap (fun text => "    ".toList ++ spellString text ++ ",\n".toList) ++
      [']']

end ItemFilter.Toml
