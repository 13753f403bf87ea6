import ItemFilter.Json
import ItemFilter.Keyword
import ItemFilter.Style

/-!
# Listing the keywords

The keywords with what they introduce, as a table with columns of fixed width or as JSON.

## Main definitions

* `Keyword.kindName`: what a keyword introduces, in a word
* `keywordTable`: the table, as lines of pieces
* `keywordsJson`: the keywords as JSON
-/

namespace ItemFilter

namespace Keyword

/-- What a keyword introduces, in a word. -/
def kindName (keyword : Keyword) : String :=
  match keyword.kind with
  | .block => "block"
  | .rule _ _ => "rule"

end Keyword

/-- A text with spaces behind it up to a width. -/
def padded (width : Nat) (text : String) : String :=
  text.pushn ' ' (width - text.length)

/-- A row of the table. -/
def keywordRow (keyword kind category comment : String) : String :=
  padded 20 keyword ++ " " ++ padded 6 kind ++ " " ++ padded 10 category ++ " " ++ comment

/-- The row of a keyword. -/
def Keyword.row (keyword : Keyword) : String :=
  keywordRow keyword.name keyword.kindName
    ((keyword.category?.map Category.name).getD "-")
    (if keyword.allowsComment then "yes" else "")

/-- The keywords as lines of a table, the column titles first. -/
def keywordTable : List (List Piece) :=
  [⟨keywordRow "Keyword" "Kind" "Category" "Comment", [.dimmed]⟩] ::
    Keyword.all.map fun keyword => [⟨keyword.row, []⟩]

/-- The keywords as JSON. -/
def keywordsJson : Json :=
  .array <| Keyword.all.map fun keyword =>
    .object <|
      [("keyword", .string keyword.name), ("kind", .string keyword.kindName)] ++
      Json.optionalMember "category" (fun category => .string category.name) keyword.category? ++
      [("trailing_comment", .boolean keyword.allowsComment)]

end ItemFilter
