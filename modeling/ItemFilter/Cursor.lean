import ItemFilter.Text.Bytes
import ItemFilter.Token

/-!
# The cursor

A cursor stands between the characters of one line: it holds the text it has consumed and the text
that remains, and its column is the length of the first. The extent of the line without the white
space at its ends is measured once, and moved along when a token of the line is replaced. Reading a
token skips white space, takes the characters of the token and demands that white space or the end
of the line follows them. A token that cannot be read leaves the cursor where it is.

## Main definitions

* `Cursor`: a place in a line
* `Matcher`: a class of tokens, as the length and value of the one a text starts with
* `Cursor.scan?`, `Cursor.read`: reading one token of a class
* `Cursor.word`, `Cursor.number`, `Cursor.boolean`, `Cursor.operator`, `Cursor.string`,
  `Cursor.hex`, `Cursor.comment`: reading a token of each class
* `Cursor.splice`: replacing a token just read, to be read again

## Main results

* `Cursor.text_of_scan?`: reading a token changes no character of the line
* `Cursor.scan?_rest_lt`: a token that was read leaves less to read
-/

namespace ItemFilter

open Text

/-- A line that cannot be scanned. -/
inductive ScanError where
  /-- The text holds a line break, the first of them at this column. -/
  | lineBreak (position : Nat)
  deriving DecidableEq, Repr

/-- The wording of a scan error. -/
def ScanError.message : ScanError → String
  | .lineBreak position => s!"line text contains a line break at byte {position}"

/-- A place in a line: the text before it and the text after it. -/
structure Cursor where
  /-- The text already consumed. -/
  consumed : Text
  /-- The text still to be read. -/
  rest : Text
  /-- The columns of the line without the white space at its ends. -/
  content : Span
  deriving DecidableEq, Repr

/-- A class of tokens: how many characters the token at the start of a text has, and its value. -/
abbrev Matcher (α : Type) := Text → Option (Nat × α)

namespace Cursor

/-- Whether a character breaks a line in two. -/
def breaksLine (c : Char) : Bool :=
  c == '\r' || c == '\n'

/-- The columns of a text without the white space at its ends; `0` to `0` for a blank text. -/
def extent (text : Text) : Span :=
  if allBlank text then ⟨0, 0⟩
  else
    let start := byteLength (leading text)
    ⟨start, start + byteLength (trim text)⟩

/-- A cursor at the start of a line. -/
def ofText (text : Text) : Except ScanError Cursor :=
  if text.any breaksLine then
    .error (.lineBreak (byteLength (text.takeWhile fun c => !breaksLine c)))
  else .ok ⟨[], text, extent text⟩

/-- The whole line. -/
def text (cursor : Cursor) : Text :=
  cursor.consumed ++ cursor.rest

/-- The column of the cursor. -/
def offset (cursor : Cursor) : Nat :=
  byteLength cursor.consumed

/-- The length of the whole line. -/
def length (cursor : Cursor) : Nat :=
  byteLength cursor.text

/-- Whether nothing but white space remains. -/
def isEmpty (cursor : Cursor) : Bool :=
  allBlank cursor.rest

/-- Whether a comment comes next. -/
def isCommented (cursor : Cursor) : Bool :=
  (trimStart cursor.rest).head? == some '#'

/-- Whether the rest of the line means nothing: it is blank or a comment. -/
def isIgnored (cursor : Cursor) : Bool :=
  cursor.isEmpty || cursor.isCommented

/-! ## Reading one token -/

/-- Whether a token may end in front of this text. -/
def atBoundary : Text → Bool
  | [] => true
  | c :: _ => isBlank c

variable {α : Type}

/-- The next token of a class, and the cursor behind it. A token has at least one character and
ends at a boundary. -/
def scan? (m : Matcher α) (cursor : Cursor) : Option (Token α × Cursor) :=
  let skipped := leading cursor.rest
  let candidate := trimStart cursor.rest
  match m candidate with
  | none => none
  | some (n, value) =>
    let lexeme := candidate.take n
    let after := candidate.drop n
    if lexeme.isEmpty || !atBoundary after then none
    else
      let start := cursor.offset + byteLength skipped
      some (⟨value, ⟨start, start + byteLength lexeme⟩⟩,
        { cursor with consumed := cursor.consumed ++ skipped ++ lexeme, rest := after })

/-- The next token of a class, if there is one, and the cursor behind what was read. -/
def read (m : Matcher α) (cursor : Cursor) : Option (Token α) × Cursor :=
  match scan? m cursor with
  | some (token, next) => (some token, next)
  | none => (none, cursor)

/-- Reading a token, spelled out: it stands behind white space, has a character, ends at a
boundary, and moves on to the cursor. -/
theorem scan?_eq_some_iff {m : Matcher α} {cursor next : Cursor} {token : Token α} :
    scan? m cursor = some (token, next) ↔
      ∃ n, m (trimStart cursor.rest) = some (n, token.value) ∧
        (trimStart cursor.rest).take n ≠ [] ∧
        atBoundary ((trimStart cursor.rest).drop n) = true ∧
        token.range.start = cursor.offset + byteLength (leading cursor.rest) ∧
        token.range.stop = token.range.start + byteLength ((trimStart cursor.rest).take n) ∧
        next = { cursor with
          consumed := cursor.consumed ++ leading cursor.rest ++ (trimStart cursor.rest).take n
          rest := (trimStart cursor.rest).drop n } := by
  obtain ⟨value, ⟨start, stop⟩⟩ := token
  simp only [scan?]
  cases hm : m (trimStart cursor.rest) with
  | none => simp
  | some found =>
    obtain ⟨n, v⟩ := found
    simp only [Option.some.injEq, Prod.mk.injEq]
    constructor
    · intro h
      split at h
      · cases h
      · next hc =>
        simp only [Bool.or_eq_true, Bool.not_eq_eq_eq_not, Bool.not_true, not_or,
          List.isEmpty_iff, Bool.not_eq_false] at hc
        simp only [Option.some.injEq, Prod.mk.injEq, Located.mk.injEq, Span.mk.injEq] at h
        obtain ⟨⟨rfl, rfl, rfl⟩, rfl⟩ := h
        exact ⟨n, ⟨rfl, rfl⟩, hc.1, hc.2, rfl, rfl, rfl⟩
    · rintro ⟨k, ⟨rfl, rfl⟩, hne, hb, rfl, rfl, rfl⟩
      rw [if_neg (by simp [hne, hb])]

/-- Reading a token changes no character of the line. -/
theorem text_of_scan? {m : Matcher α} {cursor next : Cursor} {token : Token α}
    (h : scan? m cursor = some (token, next)) : next.text = cursor.text := by
  obtain ⟨n, -, -, -, -, -, rfl⟩ := scan?_eq_some_iff.1 h
  simp only [text, List.append_assoc, List.take_append_drop, leading_append_trimStart]

/-- A token that was read leaves less to read. -/
theorem scan?_rest_lt {m : Matcher α} {cursor next : Cursor} {token : Token α}
    (h : scan? m cursor = some (token, next)) : next.rest.length < cursor.rest.length := by
  obtain ⟨n, -, hne, -, -, -, rfl⟩ := scan?_eq_some_iff.1 h
  have hlen := congrArg List.length (leading_append_trimStart cursor.rest)
  have hpos := List.length_pos_iff.2 hne
  simp only [List.length_append, List.length_take, List.length_drop] at hlen hpos ⊢
  omega

/-! ## The classes of tokens -/

/-- Whether a character can be part of a keyword. -/
def isWordChar (c : Char) : Bool :=
  c.isAlpha || c == 'ö'

/-- A run of letters. -/
def matchWord : Matcher Text := fun text =>
  let word := text.takeWhile isWordChar
  some (word.length, word)

/-- The least and greatest integer a number token denotes. -/
def clampNumber (n : Int) : Int :=
  max (-9223372036854775808) (min 9223372036854775807 n)

/-- The natural number written by decimal digits. -/
def decimal (digits : Text) : Nat :=
  digits.foldl (fun n c => 10 * n + (c.toNat - '0'.toNat)) 0

/-- A run of digits, possibly after a minus sign. A number too large for a 64-bit integer counts
as the nearest such integer. -/
def matchNumber : Matcher Int := fun text =>
  let (sign, body) :=
    match text with
    | '-' :: body => (1, body)
    | _ => (0, text)
  let digits := body.takeWhile Char.isDigit
  if digits.isEmpty then none
  else
    let magnitude : Int := decimal digits
    some (sign + digits.length, clampNumber (if sign = 1 then -magnitude else magnitude))

/-- Whether two texts are equal up to the case of ASCII letters. -/
def sameIgnoringCase (left right : Text) : Bool :=
  left.map Char.toLower == right.map Char.toLower

/-- The truth value whose name a text starts with, in any case, and the length of the name. -/
def matchTruth (text : Text) : Option (Nat × Bool) :=
  if sameIgnoringCase (text.take 4) "true".toList then some (4, true)
  else if sameIgnoringCase (text.take 5) "false".toList then some (5, false)
  else none

/-- The name of a truth value, bare or between double quotes. -/
def matchBoolean : Matcher Bool
  | '"' :: text =>
    match matchTruth text with
    | some (n, value) => if text[n]? = some '"' then some (n + 2, value) else none
    | none => none
  | text => matchTruth text

/-- A comparison operator. -/
def matchOperator : Matcher Operator := fun text =>
  (Operator.all.find? fun op => op.spelling.isPrefixOf text).map fun op => (op.spelling.length, op)

/-- Whether a character ends a string without quotes. -/
def endsBareString (c : Char) : Bool :=
  isBlank c || c == '"' || c == '\'' || c == '<' || c == '>' || c == '='

/-- A text between double quotes, or a run of characters without quotes, `<`, `>` and `=`. -/
def matchString : Matcher Text
  | '"' :: text =>
    let body := text.takeWhile (· != '"')
    if body.length < text.length then some (body.length + 2, body) else none
  | text =>
    let body := text.takeWhile fun c => !endsBareString c
    some (body.length, body)

/-- Whether a character is a hexadecimal digit. -/
def isHexDigit (c : Char) : Bool :=
  c.isDigit || ('a' ≤ c && c ≤ 'f') || ('A' ≤ c && c ≤ 'F')

/-- A `#` and six or eight hexadecimal digits. -/
def matchHex : Matcher Text
  | '#' :: text =>
    let digits := text.takeWhile isHexDigit
    if digits.length = 6 ∨ digits.length = 8 then some (digits.length + 1, '#' :: digits) else none
  | _ => none

/-- A `#` and everything behind it but trailing white space. -/
def matchComment : Matcher Text
  | '#' :: text =>
    let comment := trimEnd ('#' :: text)
    some (comment.length, comment)
  | _ => none

/-- Reads a word. -/
def word : Cursor → Option (Token Text) × Cursor := read matchWord

/-- Reads a number. -/
def number : Cursor → Option (Token Int) × Cursor := read matchNumber

/-- Reads a truth value. -/
def boolean : Cursor → Option (Token Bool) × Cursor := read matchBoolean

/-- Reads a comparison operator. -/
def operator : Cursor → Option (Token Operator) × Cursor := read matchOperator

/-- Reads a string. -/
def string : Cursor → Option (Token Text) × Cursor := read matchString

/-- Reads a hexadecimal colour. -/
def hex : Cursor → Option (Token Text) × Cursor := read matchHex

/-- Reads the rest of the line as a comment. -/
def comment : Cursor → Option (Token Text) × Cursor := read matchComment

/-- Reads numbers, one after another, at most `count` of them. -/
def numbers : Nat → Cursor → List (Token Int) × Cursor
  | 0, cursor => ([], cursor)
  | count + 1, cursor =>
    match cursor.number with
    | (some n, next) =>
      let (rest, last) := numbers count next
      (n :: rest, last)
    | (none, _) => ([], cursor)

/-- Reads strings, one after another, up to a comment or to something that is no string. -/
def arguments (cursor : Cursor) : List (Token Text) × Cursor :=
  if cursor.isCommented then ([], cursor)
  else
    match h : scan? matchString cursor with
    | some (argument, next) =>
      have := scan?_rest_lt h
      let (rest, last) := arguments next
      (argument :: rest, last)
    | none => ([], cursor)
termination_by cursor.rest.length

/-- Replaces a token in the consumed text, and goes back to read the replacement. The extent of the
line grows with the token, or shrinks with it. -/
def splice (span : Span) (replacement : Text) (cursor : Cursor) : Cursor :=
  match cut? span.start span.stop cursor.consumed with
  | some (before, _, after) =>
    { consumed := before
      rest := replacement ++ after ++ cursor.rest
      content := ⟨cursor.content.start,
        cursor.content.stop + byteLength replacement - span.length⟩ }
  | none => cursor

end Cursor

end ItemFilter
