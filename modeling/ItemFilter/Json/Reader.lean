import ItemFilter.Cursor

/-!
# Reading JSON

Readers for the parts of JSON that a catalog needs: strings, lists of strings, and values of any
kind that are passed over. A reader takes what it reads off the front of a text and gives the rest.

## Main definitions

* `Json.readString`: a string
* `Json.readStrings`: a list of strings
* `Json.skipValue`: a value that is passed over
-/

namespace ItemFilter.Json

/-- Whether a character may stand between the parts of a value. -/
def isSpace (c : Char) : Bool :=
  c == ' ' || c == '\n' || c == '\t' || c == '\r'

/-- The text behind white space. -/
def skipSpace (text : Text) : Text :=
  text.dropWhile isSpace

/-! ## Strings -/

/-- The number written by four hexadecimal digits, and the text behind them. -/
def hexUnit? : Text → Option (Nat × Text)
  | a :: b :: c :: d :: text =>
    if [a, b, c, d].all Cursor.isHexDigit then
      some ([a, b, c, d].foldl (fun n c => 16 * n + hexValue c) 0, text)
    else none
  | _ => none
where
  /-- The value of a hexadecimal digit. -/
  hexValue (c : Char) : Nat :=
    if c.isDigit then c.toNat - '0'.toNat
    else if 'a' ≤ c then c.toNat - 'a'.toNat + 10
    else c.toNat - 'A'.toNat + 10

/-- A character escaped by a single letter. -/
def simpleEscape? : Char → Option Char
  | '"' => some '"'
  | '\\' => some '\\'
  | '/' => some '/'
  | 'b' => some '\x08'
  | 'f' => some '\x0c'
  | 'n' => some '\n'
  | 'r' => some '\r'
  | 't' => some '\t'
  | _ => none

/-- The character of an escape `\u`, and the text behind it. Two halves of a surrogate pair make one
character, and half of a pair alone makes none. -/
def unicodeEscape? (text : Text) : Option (Char × Text) := do
  let (high, text) ← hexUnit? text
  if 0xDC00 ≤ high && high ≤ 0xDFFF then none
  else if 0xD800 ≤ high && high ≤ 0xDBFF then
    match text with
    | '\\' :: 'u' :: text =>
      let (low, text) ← hexUnit? text
      if 0xDC00 ≤ low && low ≤ 0xDFFF then
        some (Char.ofNat (0x10000 + (high - 0xD800) * 0x400 + (low - 0xDC00)), text)
      else none
    | _ => none
  else some (Char.ofNat high, text)

/-- The characters of a string up to its closing quote, and the text behind it. -/
def stringBody? : Nat → Text → Option (Text × Text)
  | 0, _ => none
  | _ + 1, [] => none
  | fuel + 1, c :: text =>
    if c = '"' then some ([], text)
    else if c.toNat < 0x20 then none
    else if c = '\\' then
      match text with
      | [] => none
      | 'u' :: text => do
        let (d, text) ← unicodeEscape? text
        let (body, rest) ← stringBody? fuel text
        some (d :: body, rest)
      | e :: text => do
        let d ← simpleEscape? e
        let (body, rest) ← stringBody? fuel text
        some (d :: body, rest)
    else (stringBody? fuel text).map fun (body, rest) => (c :: body, rest)

/-- Reads a string. -/
def readString : Text → Option (Text × Text)
  | '"' :: text => stringBody? (text.length + 1) text
  | _ => none

/-- The strings of a list up to its closing bracket. -/
def restOfStrings : Nat → Text → Option (List Text × Text)
  | 0, _ => none
  | fuel + 1, text => do
    let (item, text) ← readString (skipSpace text)
    match skipSpace text with
    | ',' :: text =>
      let (items, rest) ← restOfStrings fuel text
      some (item :: items, rest)
    | ']' :: text => some ([item], text)
    | _ => none

/-- Reads a list of strings. -/
def readStrings : Text → Option (List Text × Text)
  | '[' :: text =>
    match skipSpace text with
    | ']' :: rest => some ([], rest)
    | text => restOfStrings (text.length + 1) text
  | _ => none

/-! ## Values that are passed over -/

/-- The text behind a string whose characters do not matter. Escapes have to be well formed, but
halves of surrogate pairs are not looked at. -/
def skipStringBody : Nat → Text → Option Text
  | 0, _ => none
  | _ + 1, [] => none
  | fuel + 1, c :: text =>
    if c = '"' then some text
    else if c.toNat < 0x20 then none
    else if c = '\\' then
      match text with
      | [] => none
      | 'u' :: text => do
        let (_, text) ← hexUnit? text
        skipStringBody fuel text
      | e :: text => if (simpleEscape? e).isSome then skipStringBody fuel text else none
    else skipStringBody fuel text

/-- The text behind one or more digits. -/
def skipDigits (text : Text) : Option Text :=
  let rest := text.dropWhile Char.isDigit
  if rest.length < text.length then some rest else none

/-- The text behind the exponent of a number, if there is one. -/
def skipExponent : Text → Option Text
  | c :: text =>
    if c = 'e' || c = 'E' then
      match text with
      | '+' :: text => skipDigits text
      | '-' :: text => skipDigits text
      | text => skipDigits text
    else some (c :: text)
  | [] => some []

/-- The text behind a number. -/
def skipNumber (text : Text) : Option Text := do
  let text := match text with
    | '-' :: text => text
    | text => text
  let text ←
    match text with
    | '0' :: text =>
      match text with
      | c :: _ => if c.isDigit then none else some text
      | [] => some text
    | text => skipDigits text
  match text with
  | '.' :: text => (skipDigits text).bind skipExponent
  | text => skipExponent text

/-- The text behind the given characters. -/
def skipWord : List Char → Text → Option Text
  | [], text => some text
  | c :: word, d :: text => if c = d then skipWord word text else none
  | _ :: _, [] => none

mutual

/-- The text behind a value of any kind. -/
def skipValueWith : Nat → Text → Option Text
  | 0, _ => none
  | fuel + 1, text =>
    match skipSpace text with
    | '"' :: text => skipStringBody (text.length + 1) text
    | '[' :: text =>
      match skipSpace text with
      | ']' :: rest => some rest
      | text => skipItems fuel text
    | '\x7b' :: text =>
      match skipSpace text with
      | '\x7d' :: rest => some rest
      | text => skipMembers fuel text
    | 'n' :: text => skipWord ['u', 'l', 'l'] text
    | 't' :: text => skipWord ['r', 'u', 'e'] text
    | 'f' :: text => skipWord ['a', 'l', 's', 'e'] text
    | text => skipNumber text

/-- The text behind the items of an array and its closing bracket. -/
def skipItems : Nat → Text → Option Text
  | 0, _ => none
  | fuel + 1, text => do
    let text ← skipValueWith fuel text
    match skipSpace text with
    | ',' :: text => skipItems fuel text
    | ']' :: text => some text
    | _ => none

/-- The text behind the members of an object and its closing brace. -/
def skipMembers : Nat → Text → Option Text
  | 0, _ => none
  | fuel + 1, text =>
    match skipSpace text with
    | '"' :: text => do
      let text ← skipStringBody (text.length + 1) text
      match skipSpace text with
      | ':' :: text =>
        let text ← skipValueWith fuel text
        match skipSpace text with
        | ',' :: text => skipMembers fuel text
        | '\x7d' :: text => some text
        | _ => none
      | _ => none
    | _ => none

end

/-- The text behind a value of any kind. Each level and each entry of a value takes a character, so
the length of the text bounds the steps. -/
def skipValue (text : Text) : Option Text :=
  skipValueWith (2 * text.length + 2) text

end ItemFilter.Json
