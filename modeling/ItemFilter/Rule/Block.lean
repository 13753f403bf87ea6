import ItemFilter.Rule.Outcome

/-!
# What may follow a block keyword

Behind `Show` and `Hide` only a comment means something. Other text is ignored by the game, which is
worth a warning and a fix.

## Main definitions

* `Rule.block`: the text behind a block keyword
-/

namespace ItemFilter.Rule

open Outcome

/-- Text that the game ignores follows a block keyword. -/
def ignoredText (keyword : Keyword) (line : Text) (span : Span) : Diagnostic Span :=
  { severity := .warning
    range := span
    excerpt := s!"Trailing text for a \"{keyword.name}\" block will be ignored."
    description := some <|
      "Path of Exile will not consider this an error, however the text will be completely " ++
      "ignored.\n\nCommenting this text with a '#' will remove this warning."
    page := some .overview
    fix := some (Fix.commentOut line span) }

/-- The text behind a block keyword. A comment is kept, and other text is warned about if warnings
are wanted. -/
def block (keyword : Keyword) (warnings : Bool) (cursor : Cursor) : Outcome × Cursor :=
  match cursor.comment with
  | (some comment, next) => ({ comment := some comment }, next)
  | (none, next) =>
    if next.isEmpty || !warnings then ({}, next)
    else
      ({ diagnostics := [ignoredText keyword next.text ⟨next.offset, next.length⟩] }, next)

end ItemFilter.Rule
