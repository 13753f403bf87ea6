import ItemFilter.Rule.Block
import ItemFilter.Rule.Color
import ItemFilter.Rule.Number
import ItemFilter.Rule.Word

/-!
# Reading a rule

The arguments of a rule are read by the rule its keyword stands for. An outcome without errors has
to have read the whole line, and text left over is an error with a fix.

## Main definitions

* `Rule.arguments`: the arguments behind a keyword
* `Rule.read`: the same, with nothing left over
-/

namespace ItemFilter.Rule

/-- Reads what may follow a keyword with the given rule. -/
def arguments (catalog : Catalog) (keyword : Keyword) : ArgumentRule → Cursor → Outcome × Cursor
  | .range bounds operator => range keyword bounds operator
  | .boolean => boolean keyword
  | .oneOf allowed => oneOf keyword allowed
  | .operatorNumber allowed => operatorNumber keyword allowed
  | .socketGroup => socketGroup keyword
  | .catalogList names => catalogList keyword (catalog.names names)
  | .color => color keyword
  | .alertSound => alertSound keyword

/-- Text follows the arguments of a rule. -/
def leftoverText (line : Text) (span : Span) : Diagnostic Span :=
  { severity := .error
    range := span
    excerpt := "Trailing text for a filter rule."
    description := some "Path of Exile will consider this an error."
    page := some .guide
    fix := some (Fix.commentOut line span) }

/-- Reads the arguments of a rule and reports text left over behind valid ones. -/
def read (catalog : Catalog) (keyword : Keyword) (rule : ArgumentRule) (cursor : Cursor) :
    Outcome × Cursor :=
  let (outcome, cursor) := arguments catalog keyword rule cursor
  if outcome.invalid || cursor.isEmpty then (outcome, cursor)
  else
    let span : Span := ⟨cursor.offset, cursor.content.stop⟩
    (outcome.report (leftoverText cursor.text span), cursor)

end ItemFilter.Rule
