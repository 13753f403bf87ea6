import ItemFilter.Span
import ItemFilter.Text.Blank

/-!
# Tokens

What the cursor reads out of a line: words, numbers, booleans, comparison operators, strings,
colours and comments, each with its span.

## Main definitions

* `Token`: a value and its span
* `Operator`: the comparison operators and their spelling
* `Value`: an accepted argument of a rule
-/

namespace ItemFilter

/-- A value read from a line, with the columns it was read from. -/
abbrev Token := Located Span

/-- A comparison in front of a rule's arguments. -/
inductive Operator where
  | equal
  | less
  | greater
  | lessEqual
  | greaterEqual
  deriving DecidableEq, Repr

namespace Operator

/-- The spelling of an operator. -/
def spelling : Operator → Text
  | equal => ['=']
  | less => ['<']
  | greater => ['>']
  | lessEqual => ['<', '=']
  | greaterEqual => ['>', '=']

/-- All operators, each behind those whose spelling it starts. -/
def all : List Operator :=
  [lessEqual, greaterEqual, equal, less, greater]

end Operator

/-- An accepted argument of a rule. -/
inductive Value where
  /-- An integer, such as a level or a colour channel. -/
  | number (n : Int)
  /-- A truth value. -/
  | boolean (b : Bool)
  /-- A string, such as a rarity or the name of a class. -/
  | text (text : Text)
  deriving DecidableEq, Repr

namespace Value

/-- The integer of a numeric value. -/
def number? : Value → Option Int
  | number n => some n
  | _ => none

/-- The string of a text value. -/
def text? : Value → Option Text
  | text t => some t
  | _ => none

/-- The value as it is shown to a reader. -/
def display : Value → String
  | number n => toString n
  | boolean true => "true"
  | boolean false => "false"
  | text t => String.ofList t

end Value

end ItemFilter
