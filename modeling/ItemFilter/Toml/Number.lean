import ItemFilter.Cursor
import ItemFilter.Toml
import ItemFilter.Toml.Quoted

/-!
# Reading numbers and dates

Integers are decimal, hexadecimal, octal or binary and have to fit into 64 bits. Underscores may
stand between digits. A number with a fraction or an exponent must not be too large for a
double-precision float, and dates and times have to exist in the calendar and on the clock.

## Main definitions

* `Toml.readInteger`, `Toml.readFloat`, `Toml.readDateTime`: the three kinds
* `Toml.readNumber`: a value of any of them
-/

namespace ItemFilter.Toml

/-! ## Digits -/

/-- The digits that go on behind a digit, and the text behind them. An underscore has to have a
digit on both sides. -/
def moreDigits (isDigit : Char → Bool) : Text → Text × Text
  | '_' :: c :: text =>
    if isDigit c then
      let (digits, rest) := moreDigits isDigit text
      (c :: digits, rest)
    else ([], '_' :: c :: text)
  | c :: text =>
    if isDigit c then
      let (digits, rest) := moreDigits isDigit text
      (c :: digits, rest)
    else ([], c :: text)
  | [] => ([], [])

/-- The digits at the start of a text, at least one, and the text behind them. -/
def readDigits (isDigit : Char → Bool) : Text → Option (Text × Text)
  | c :: text =>
    if isDigit c then
      let (digits, rest) := moreDigits isDigit text
      some (c :: digits, rest)
    else none
  | [] => none

/-- The number written by digits in a base. -/
def digitsValue (base : Nat) (digits : Text) : Nat :=
  digits.foldl (fun n c => base * n + hexValue c) 0

/-- Whether a minus sign stands in front, and the text behind the sign, if there is one. -/
def readSign : Text → Bool × Text
  | '-' :: text => (true, text)
  | '+' :: text => (false, text)
  | text => (false, text)

/-- The digits of a decimal integer. A zero in front of other digits stands alone. -/
def readDecimal : Text → Option (Text × Text)
  | '0' :: text => some (['0'], text)
  | text => readDigits Char.isDigit text

/-! ## Integers -/

/-- An integer that fits into 64 bits. -/
def bounded? (n : Int) : Option Int :=
  if -9223372036854775808 ≤ n ∧ n ≤ 9223372036854775807 then some n else none

/-- Whether a character is a digit below eight. -/
def isOctalDigit (c : Char) : Bool :=
  '0' ≤ c && c ≤ '7'

/-- Whether a character is a digit below two. -/
def isBinaryDigit (c : Char) : Bool :=
  c == '0' || c == '1'

/-- Reads an integer in a base from behind the letter of the base. -/
def readInBase (base : Nat) (isDigit : Char → Bool) (text : Text) : Option (Int × Text) := do
  let (digits, rest) ← readDigits isDigit text
  let n ← bounded? (digitsValue base digits)
  some (n, rest)

/-- Reads an integer. -/
def readInteger : Text → Option (Int × Text)
  | '0' :: 'x' :: text => readInBase 16 Cursor.isHexDigit text
  | '0' :: 'o' :: text => readInBase 8 isOctalDigit text
  | '0' :: 'b' :: text => readInBase 2 isBinaryDigit text
  | text => do
    let (negative, text) := readSign text
    let (digits, rest) ← readDecimal text
    let magnitude : Int := digitsValue 10 digits
    let n ← bounded? (if negative then -magnitude else magnitude)
    some (n, rest)

/-! ## Floats -/

/-- The exponent of a number, if there is one. -/
def readExponent : Text → Option (Int × Text)
  | c :: text =>
    if c = 'e' ∨ c = 'E' then do
      let (negative, text) := readSign text
      let (digits, rest) ← readDigits Char.isDigit text
      let magnitude : Int := digitsValue 10 digits
      some (if negative then -magnitude else magnitude, rest)
    else none
  | [] => none

/-- The smallest number that is rounded to infinity: half a unit above the largest finite one. -/
def overflow : Nat :=
  Nat.pow 2 1024 - Nat.pow 2 970

/-- Whether `digits * 10 ^ exponent` is rounded to infinity. The number of digits settles it unless
the number is close to the limit. -/
def tooLarge (digits : Text) (exponent : Int) : Bool :=
  let digits := digits.dropWhile (· == '0')
  let size : Int := digits.length + exponent
  if digits.isEmpty || size < 300 then false
  else if 320 < size then true
  else
    let n := digitsValue 10 digits
    if 0 ≤ exponent then overflow ≤ n * Nat.pow 10 exponent.toNat
    else overflow * Nat.pow 10 (-exponent).toNat ≤ n

/-- The text behind the name of an infinity, or of what is no number. -/
def readSpecial : Text → Option Text
  | 'i' :: 'n' :: 'f' :: text => some text
  | 'n' :: 'a' :: 'n' :: text => some text
  | _ => none

/-- The text behind a number with a fraction or an exponent. Only negative numbers may overflow. -/
def readFloat (text : Text) : Option Text :=
  let (negative, body) := readSign text
  match readDecimal body with
  | none => readSpecial body
  | some (whole, rest) => do
    let (fraction, exponent, rest) ←
      match rest with
      | '.' :: rest => do
        let (fraction, rest) ← readDigits Char.isDigit rest
        match readExponent rest with
        | some (exponent, rest) => some (fraction, exponent, rest)
        | none => some (fraction, 0, rest)
      | rest => (readExponent rest).map fun (exponent, rest) => ([], exponent, rest)
    if !negative && tooLarge (whole ++ fraction) (exponent - fraction.length) then none
    else some rest

/-! ## Dates and times -/

/-- The number written by exactly `count` digits. -/
def readCount (count : Nat) (text : Text) : Option (Nat × Text) :=
  let digits := text.take count
  if digits.length = count ∧ digits.all Char.isDigit then
    some (digitsValue 10 digits, text.drop count)
  else none

/-- The text behind a character. -/
def skipChar (c : Char) : Text → Option Text
  | d :: text => if d = c then some text else none
  | [] => none

/-- Whether a year has a leap day. -/
def isLeapYear (year : Nat) : Bool :=
  year % 4 == 0 && (year % 100 != 0 || year % 400 == 0)

/-- The number of days of a month. -/
def daysOf (year month : Nat) : Nat :=
  if month = 2 then if isLeapYear year then 29 else 28
  else if month = 4 ∨ month = 6 ∨ month = 9 ∨ month = 11 then 30
  else 31

/-- The text behind a date. -/
def readDate (text : Text) : Option Text := do
  let (year, text) ← readCount 4 text
  let text ← skipChar '-' text
  let (month, text) ← readCount 2 text
  let text ← skipChar '-' text
  let (day, text) ← readCount 2 text
  if 1 ≤ month ∧ month ≤ 12 ∧ 1 ≤ day ∧ day ≤ daysOf year month then some text else none

/-- The text behind hours and minutes. -/
def readClock (text : Text) : Option Text := do
  let (hour, text) ← readCount 2 text
  let text ← skipChar ':' text
  let (minute, text) ← readCount 2 text
  if hour ≤ 23 ∧ minute ≤ 59 then some text else none

/-- The text behind a time. A second may be a leap second and may have a fraction. -/
def readTime (text : Text) : Option Text := do
  let text ← readClock text
  let text ← skipChar ':' text
  let (second, text) ← readCount 2 text
  if second ≤ 60 then
    match text with
    | '.' :: text =>
      let rest := text.dropWhile Char.isDigit
      some (if rest.length < text.length then rest else '.' :: text)
    | text => some text
  else none

/-- The text behind an offset from universal time, if there is one. -/
def skipOffset (text : Text) : Text :=
  match text with
  | 'Z' :: rest | 'z' :: rest => rest
  | '+' :: rest | '-' :: rest => (readClock rest).getD text
  | _ => text

/-- The text behind the time that belongs to a date, if there is one. -/
def skipTimeOfDay (text : Text) : Text :=
  match text with
  | c :: rest =>
    if c = 'T' ∨ c = 't' ∨ c = ' ' then ((readTime rest).map skipOffset).getD text else text
  | [] => []

/-- The text behind a date, a time, or both. -/
def readDateTime (text : Text) : Option Text :=
  match readDate text with
  | some rest => some (skipTimeOfDay rest)
  | none => readTime text

/-- Reads a date, a float or an integer, the first of these that the text starts with. -/
def readNumber (text : Text) : Option (Value × Text) :=
  match readDateTime text with
  | some rest => some (.dateTime, rest)
  | none =>
    match readFloat text with
    | some rest => some (.float, rest)
    | none => (readInteger text).map fun (n, rest) => (.integer n, rest)

end ItemFilter.Toml
