import ItemFilter.Cursor
import ItemFilter.Toml.Space

/-!
# Reading strings

A string stands between double quotes, where a backslash escapes, or between single quotes, where
everything stands for itself. Three quotes instead of one make a string that may have line breaks.
Every reader takes what it reads off the front of a text and gives the rest.

## Main definitions

* `Toml.readBasic`, `Toml.readLiteral`: a string in one line
* `Toml.readBasicLines`, `Toml.readLiteralLines`: a string of several lines
* `Toml.readString`: a string of any kind
-/

namespace ItemFilter.Toml

/-! ## Escapes -/

/-- The value of a hexadecimal digit. -/
def hexValue (c : Char) : Nat :=
  if c.isDigit then c.toNat - '0'.toNat
  else if 'a' ≤ c then c.toNat - 'a'.toNat + 10
  else c.toNat - 'A'.toNat + 10

/-- The character whose number is written by `count` hexadecimal digits. -/
def codedCharacter? (count : Nat) (text : Text) : Option (Char × Text) :=
  let digits := text.take count
  if digits.length = count ∧ digits.all Cursor.isHexDigit then
    let n := digits.foldl (fun n c => 16 * n + hexValue c) 0
    if n.isValidChar then some (Char.ofNat n, text.drop count) else none
  else none

/-- The character that an escape stands for, from behind its backslash. -/
def readEscape : Text → Option (Char × Text)
  | 'b' :: text => some ('\x08', text)
  | 't' :: text => some ('\t', text)
  | 'n' :: text => some ('\n', text)
  | 'f' :: text => some ('\x0c', text)
  | 'r' :: text => some ('\r', text)
  | '"' :: text => some ('"', text)
  | '\\' :: text => some ('\\', text)
  | 'u' :: text => codedCharacter? 4 text
  | 'U' :: text => codedCharacter? 8 text
  | _ => none

/-! ## One line -/

/-- The characters of a string up to its double quote, and the text behind it. -/
def basicBody : Nat → Text → Option (Text × Text)
  | 0, _ => none
  | _ + 1, [] => none
  | fuel + 1, c :: text =>
    if c = '"' then some ([], text)
    else if c = '\\' then do
      let (d, text) ← readEscape text
      let (body, rest) ← basicBody fuel text
      some (d :: body, rest)
    else if isPlain c then (basicBody fuel text).map fun (body, rest) => (c :: body, rest)
    else none

/-- Reads a string between double quotes. -/
def readBasic : Text → Option (Text × Text)
  | '"' :: text => basicBody (text.length + 1) text
  | _ => none

/-- Reads a string between single quotes. -/
def readLiteral : Text → Option (Text × Text)
  | '\'' :: text =>
    let body := text.takeWhile fun c => isPlain c && c != '\''
    match text.drop body.length with
    | '\'' :: rest => some (body, rest)
    | _ => none
  | _ => none

/-! ## Several lines -/

/-- The text behind the line break at the very start, if there is one. -/
def skipFirstBreak (text : Text) : Text :=
  (lineBreak? text).getD text

/-- The end of a string of several lines, from behind its three quotes. Up to two further quotes
belong to the string. -/
def closing (quote : Char) (text : Text) : Text × Text :=
  let extra := (text.take 2).takeWhile (· == quote)
  (extra, text.drop extra.length)

/-- The text behind blanks and line breaks that follow a line break, from behind a backslash. -/
def continuedLine? (text : Text) : Option Text :=
  (lineBreak? (skipBlanks text)).map skipBreaks
where
  /-- The text behind blanks and line breaks. -/
  skipBreaks : Text → Text
    | '\r' :: '\n' :: text => skipBreaks text
    | c :: text => if isBlank c || c == '\n' then skipBreaks text else c :: text
    | [] => []

/-- The characters of a string up to its three double quotes, and the text behind them. A backslash
at the end of a line goes with everything up to the next visible character, and every line break
counts as a line feed. -/
def basicLines : Nat → Text → Option (Text × Text)
  | 0, _ => none
  | _ + 1, [] => none
  | _ + 1, '"' :: '"' :: '"' :: text => some (closing '"' text)
  | fuel + 1, '\\' :: text =>
    match continuedLine? text with
    | some rest => basicLines fuel rest
    | none => do
      let (d, text) ← readEscape text
      let (body, rest) ← basicLines fuel text
      some (d :: body, rest)
  | fuel + 1, c :: text =>
    match lineBreak? (c :: text) with
    | some rest => (basicLines fuel rest).map fun (body, rest) => ('\n' :: body, rest)
    | none =>
      if isPlain c then (basicLines fuel text).map fun (body, rest) => (c :: body, rest)
      else none

/-- Reads a string between three double quotes. -/
def readBasicLines : Text → Option (Text × Text)
  | '"' :: '"' :: '"' :: text => basicLines (text.length + 1) (skipFirstBreak text)
  | _ => none

/-- The characters of a string up to its three single quotes, and the text behind them. Every line
break counts as a line feed. -/
def literalLines : Nat → Text → Option (Text × Text)
  | 0, _ => none
  | _ + 1, [] => none
  | _ + 1, '\'' :: '\'' :: '\'' :: text => some (closing '\'' text)
  | fuel + 1, c :: text =>
    match lineBreak? (c :: text) with
    | some rest => (literalLines fuel rest).map fun (body, rest) => ('\n' :: body, rest)
    | none =>
      if isPlain c then (literalLines fuel text).map fun (body, rest) => (c :: body, rest)
      else none

/-- Reads a string between three single quotes. -/
def readLiteralLines : Text → Option (Text × Text)
  | '\'' :: '\'' :: '\'' :: text => literalLines (text.length + 1) (skipFirstBreak text)
  | _ => none

/-- Reads a string of any kind. -/
def readString (text : Text) : Option (Text × Text) :=
  match text with
  | '"' :: '"' :: '"' :: _ => readBasicLines text
  | '"' :: _ => readBasic text
  | '\'' :: '\'' :: '\'' :: _ => readLiteralLines text
  | _ => readLiteral text

end ItemFilter.Toml
