/-!
# JSON

A JSON value keeps the members of its objects in order. It is printed with one entry per line and
two more spaces of indentation at each level. Characters are escaped only where JSON demands it.

## Main definitions

* `Json`: a value
* `Json.ofText`, `Json.ofCount`, `Json.optionalMember`: values and members made from other data
* `Json.quote`: a string between quotes
* `Json.render`: a value as text
-/

namespace ItemFilter

/-- A JSON value. -/
inductive Json where
  | boolean (b : Bool)
  | number (n : Int)
  | string (s : String)
  | array (items : List Json)
  | object (members : List (String × Json))

namespace Json

/-! ## Making values -/

/-- A text as a string. -/
def ofText (text : List Char) : Json :=
  string (String.ofList text)

/-- A number of things. -/
def ofCount (n : Nat) : Json :=
  number n

/-- A member for a value that may be there. -/
def optionalMember {α : Type} (name : String) (encode : α → Json) : Option α → List (String × Json)
  | some a => [(name, encode a)]
  | none => []

/-! ## Printing -/

/-- The lower-case hexadecimal digit of a number below sixteen. -/
def hexDigit (n : Nat) : Char :=
  Nat.digitChar n

/-- A character as it stands in a string. -/
def escape (c : Char) : List Char :=
  if c = '"' then ['\\', '"']
  else if c = '\\' then ['\\', '\\']
  else if c = '\n' then ['\\', 'n']
  else if c = '\r' then ['\\', 'r']
  else if c = '\t' then ['\\', 't']
  else if c.toNat = 0x8 then ['\\', 'b']
  else if c.toNat = 0xC then ['\\', 'f']
  else if c.toNat < 0x20 then
    ['\\', 'u', '0', '0', hexDigit (c.toNat / 16), hexDigit (c.toNat % 16)]
  else [c]

/-- A string between quotes. -/
def quote (s : String) : String :=
  "\"" ++ String.ofList (s.toList.flatMap escape) ++ "\""

/-- The start of a line at a level of nesting. -/
def newline (level : Nat) : String :=
  "\n" ++ "".pushn ' ' (2 * level)

mutual

/-- A value as text, at a level of nesting. -/
def renderAt (level : Nat) : Json → String
  | boolean true => "true"
  | boolean false => "false"
  | number n => toString n
  | string s => quote s
  | array [] => "[]"
  | array (item :: items) =>
    "[" ++ newline (level + 1) ++ renderAt (level + 1) item ++ renderItems (level + 1) items ++
      newline level ++ "]"
  | object [] => "\x7b\x7d"
  | object ((name, value) :: members) =>
    "\x7b" ++ newline (level + 1) ++ quote name ++ ": " ++ renderAt (level + 1) value ++
      renderMembers (level + 1) members ++ newline level ++ "\x7d"

/-- The items of an array behind the first. -/
def renderItems (level : Nat) : List Json → String
  | [] => ""
  | item :: items => "," ++ newline level ++ renderAt level item ++ renderItems level items

/-- The members of an object behind the first. -/
def renderMembers (level : Nat) : List (String × Json) → String
  | [] => ""
  | (name, value) :: members =>
    "," ++ newline level ++ quote name ++ ": " ++ renderAt level value ++
      renderMembers level members

end

/-- A value as text. -/
def render (value : Json) : String :=
  renderAt 0 value

end Json

end ItemFilter
