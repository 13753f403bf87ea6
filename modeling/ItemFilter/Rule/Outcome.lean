import ItemFilter.Cursor
import ItemFilter.Diagnostic
import ItemFilter.Keyword

/-!
# Outcomes of a rule

What the arguments of a rule come to: an operator, values, problems, a comment and edits of the
line. A rule is read by a function from the cursor behind its keyword to an outcome and the cursor
behind whatever was read. The parts that several rules share are here: operators that have to be
`=`, comments behind the arguments, and the wording of bad formats and bad values.

## Main definitions

* `Outcome`: what was learned from the arguments of a rule
* `Outcome.invalid`: whether the arguments are in error
* `Outcome.withEquality`: arguments that only `=` may stand in front of
* `Outcome.rejectComment`, `Outcome.captureComment`: what to do with a comment at the end
-/

namespace ItemFilter

open Text

/-- What was learned from the arguments of a rule. -/
structure Outcome where
  /-- The operator in front of the arguments. -/
  operator : Option (Token Operator) := none
  /-- The accepted arguments. -/
  values : List (Token Value) := []
  /-- The problems, in the order they were found. -/
  diagnostics : List (Diagnostic Span) := []
  /-- The comment behind the arguments, where one is allowed. -/
  comment : Option (Token Text) := none
  /-- Edits of the line that are part of reading it. -/
  edits : List (TextEdit Span) := []
  deriving DecidableEq, Repr

namespace Outcome

/-- Whether one of the problems is an error. -/
def invalid (outcome : Outcome) : Bool :=
  outcome.diagnostics.any Diagnostic.isError

/-- The outcome with a further problem. -/
def report (outcome : Outcome) (diagnostic : Diagnostic Span) : Outcome :=
  { outcome with diagnostics := outcome.diagnostics ++ [diagnostic] }

/-- The outcome with a further value. -/
def accept (outcome : Outcome) (value : Token Value) : Outcome :=
  { outcome with values := outcome.values ++ [value] }

/-! ## Shared problems -/

/-- The arguments of a rule do not have the form they should have. -/
def badFormat (keyword : Keyword) (usage : String) (page : Page) (cursor : Cursor) :
    Diagnostic Span :=
  { severity := .error
    range := ⟨cursor.content.start, cursor.length⟩
    excerpt := s!"Invalid format. Expected \"{keyword.name} {usage}\"."
    page }

/-- An argument of a rule is not one of the values expected. -/
def badValue (keyword : Keyword) (span : Span) (expected : String) (page : Page) :
    Diagnostic Span :=
  { severity := .error
    range := span
    excerpt := s!"Invalid value for rule \"{keyword.name}\". Expected {expected}."
    page }

/-- An operator other than `=` stands in front of arguments that allow no other. -/
def badOperator (keyword : Keyword) (span : Span) : Diagnostic Span :=
  { severity := .error
    range := span
    excerpt :=
      s!"Invalid operator for \"{keyword.name}\". Only the '=' operator is supported for this rule."
    description := some <|
      "Path of Exile allows an operator to appear for most rule types, however for\n" ++
      "some rules only the '=' operator is allowed. Any other operators will result in an error."
    page := some .overview }

/-- A comment follows the arguments of a rule that allows none. -/
def badComment (keyword : Keyword) (span : Span) : Diagnostic Span :=
  { severity := .error
    range := span
    excerpt := s!"A trailing comment for a \"{keyword.name}\" rule will result in an error."
    description := some <|
      "Path of Exile only allows for comments to trail the following rule types:" ++
      "\n\n\tSetBorderColor\n\tSetTextColor\n\tSetBackgroundColor\n\tPlayAlertSound\n\n" ++
      "Any other rule types with a trailing comment will result in an error."
    page := some .overview }

/-! ## Shared steps -/

/-- Reads an operator if there is one, and goes on with it unless it is another than `=`. -/
def withEquality (keyword : Keyword) (cursor : Cursor)
    (arguments : Option (Token Operator) → Cursor → Outcome × Cursor) : Outcome × Cursor :=
  match cursor.operator with
  | (some op, next) =>
    if op.value = .equal then arguments (some op) next
    else ({ diagnostics := [badOperator keyword op.range] }, next)
  | (none, next) => arguments none next

/-- Reads a comment if there is one, and reports it. -/
def rejectComment (keyword : Keyword) (outcome : Outcome) (cursor : Cursor) : Outcome × Cursor :=
  match cursor.comment with
  | (some comment, next) =>
    (outcome.report (badComment keyword ⟨comment.range.start, next.length⟩), next)
  | (none, next) => (outcome, next)

/-- Reads a comment if there is one, and keeps it. -/
def captureComment (outcome : Outcome) (cursor : Cursor) : Outcome × Cursor :=
  match cursor.comment with
  | (some comment, next) => ({ outcome with comment := some comment }, next)
  | (none, next) => (outcome, next)

end Outcome

end ItemFilter
