import ItemFilter.Rule.Outcome

/-!
# Rules with numbers

Three rules take numbers: one number within bounds, one number out of a list, and a sound with its
volume. Where several numbers are read, each of them is checked, and they are accepted together or
not at all.

## Main definitions

* `Rule.range`, `Rule.operatorNumber`, `Rule.alertSound`: the three rules
* `Rule.checkNumbers`: numbers against the bounds of their positions
-/

namespace ItemFilter.Rule

open Outcome

/-- Checks numbers against the bounds of their positions, and accepts all of them or none. -/
def checkNumbers (keyword : Keyword) (outcome : Outcome)
    (numbers : List (Token Int × Bounds)) : Outcome :=
  let problems := (numbers.filter fun (n, bounds) => !bounds.contains n.value).map
    fun (n, bounds) => badValue keyword n.range bounds.display .actions
  if problems.isEmpty then
    { outcome with values := outcome.values ++ numbers.map fun (n, _) => n.map .number }
  else { outcome with diagnostics := outcome.diagnostics ++ problems }

/-- A rule that takes no operator has one. -/
def needlessOperator (keyword : Keyword) (span : Span) : Diagnostic Span :=
  { severity := .error
    range := span
    excerpt := s!"An operator for a \"{keyword.name}\" rule is an error."
    page := some .overview }

/-- A number lies outside the bounds of its rule. -/
def outOfBounds (keyword : Keyword) (span : Span) (bounds : Bounds) : Diagnostic Span :=
  { severity := .error
    range := span
    excerpt := s!"Invalid value for \"{keyword.name}\" rule. Expected {bounds.display}."
    page := some .overview }

/-- One number within bounds. Where no operator is allowed one is reported, and the number behind it
is checked all the same. -/
def range (keyword : Keyword) (bounds : Bounds) (operatorAllowed : Bool) (cursor : Cursor) :
    Outcome × Cursor :=
  let (operator, cursor) := cursor.operator
  let outcome : Outcome :=
    match operator with
    | none => {}
    | some op =>
      if operatorAllowed then { operator := some op }
      else { diagnostics := [needlessOperator keyword op.range] }
  let (number, cursor) := cursor.number
  let outcome :=
    match number with
    | none =>
      let usage := if operatorAllowed then "[Operator] <Number>" else "<Number>"
      outcome.report (badFormat keyword usage .overview cursor)
    | some n =>
      if bounds.contains n.value then outcome.accept (n.map .number)
      else outcome.report (outOfBounds keyword n.range bounds)
  rejectComment keyword outcome cursor

/-- One number out of a list, possibly behind an operator. -/
def operatorNumber (keyword : Keyword) (allowed : List Int) (cursor : Cursor) : Outcome × Cursor :=
  let (operator, cursor) := cursor.operator
  let outcome : Outcome := { operator }
  match cursor.number with
  | (none, cursor) =>
    (outcome.report (badFormat keyword "[Operator] <Number>" .conditions cursor), cursor)
  | (some n, cursor) =>
    let outcome :=
      if allowed.contains n.value then outcome.accept (n.map .number)
      else
        let expected := ",".intercalate (allowed.map toString)
        outcome.report (badValue keyword n.range expected .conditions)
    rejectComment keyword outcome cursor

/-- The sounds there are. -/
def soundBounds : Bounds := ⟨1, 9⟩

/-- The volumes a sound can have. -/
def volumeBounds : Bounds := ⟨0, 300⟩

/-- A sound, possibly with a volume. -/
def alertSound (keyword : Keyword) (cursor : Cursor) : Outcome × Cursor :=
  withEquality keyword cursor fun operator cursor =>
    let outcome : Outcome := { operator }
    match cursor.numbers 2 with
    | ([], cursor) =>
      (outcome.report (badFormat keyword "<Value> [Value]" .actions cursor), cursor)
    | (numbers, cursor) =>
      captureComment (checkNumbers keyword outcome (numbers.zip [soundBounds, volumeBounds])) cursor

end ItemFilter.Rule
