import ItemFilter.Json
import ItemFilter.Line

/-!
# Classified lines in JSON

A classified line is an object with its kind, its problems, whether it is invalid, and its edits if
there are any. What a line or a problem does not have is left out of its object.

## Main definitions

* `LineResult.toJson`: a classified line
* `Diagnostic.toJson`: a problem
-/

namespace ItemFilter

open Json

/-- A range as an object. -/
def Range.toJson (range : Range) : Json :=
  object [("line", ofCount range.line), ("start", ofCount range.start), ("end", ofCount range.stop)]

/-- A value and its range as an object, the value under the given name. -/
def Located.toJson {α : Type} (name : String) (encode : α → Json) (x : Located Range α) : Json :=
  object [(name, encode x.value), ("range", x.range.toJson)]

/-- A keyword as its name. -/
def Keyword.toJson (keyword : Keyword) : Json :=
  string keyword.name

/-- An operator as its spelling. -/
def Operator.toJson (operator : Operator) : Json :=
  ofText operator.spelling

/-- A value as a number, a truth value or a string. -/
def Value.toJson : Value → Json
  | number n => .number n
  | boolean b => .boolean b
  | text t => ofText t

/-- The members of an edit. -/
def TextEdit.members (edit : TextEdit Range) : List (String × Json) :=
  [("range", edit.range.toJson), ("old_text", ofText edit.oldText),
   ("new_text", ofText edit.newText)]

/-- An edit as an object. -/
def TextEdit.toJson (edit : TextEdit Range) : Json :=
  object edit.members

/-- A fix as an object. -/
def Fix.toJson (fix : Fix Range) : Json :=
  object (fix.edit.members ++ [("title", string fix.title)])

/-- A problem as an object. -/
def Diagnostic.toJson (diagnostic : Diagnostic Range) : Json :=
  object <|
    [("severity", string diagnostic.severity.name)] ++
    optionalMember "file" string diagnostic.file ++
    [("range", diagnostic.range.toJson), ("excerpt", string diagnostic.excerpt)] ++
    optionalMember "description" string diagnostic.description ++
    optionalMember "url" (fun page => string page.address) diagnostic.page ++
    optionalMember "fix" Fix.toJson diagnostic.fix

/-- A line that opens a block as an object. -/
def BlockLine.toJson (line : BlockLine Range) : Json :=
  object <|
    [("keyword", line.keyword.toJson "keyword" Keyword.toJson), ("range", line.range.toJson)] ++
    optionalMember "trailing_comment" (Located.toJson "text" ofText) line.comment

/-- A line that holds a rule as an object. -/
def RuleLine.toJson (line : RuleLine Range) : Json :=
  object <|
    [("keyword", line.keyword.toJson "keyword" Keyword.toJson), ("range", line.range.toJson),
     ("category", string line.category.name)] ++
    optionalMember "operator" (Located.toJson "operator" Operator.toJson) line.operator ++
    [("values", array (line.values.map (Located.toJson "value" Value.toJson)))] ++
    optionalMember "trailing_comment" (Located.toJson "text" ofText) line.comment

/-- What a line is, as an object with a type and the data of that type. -/
def LineKind.toJson : LineKind Range → Json
  | comment body => tagged "Comment" (body.toJson "text" ofText)
  | empty => object [("type", string "Empty")]
  | block line => tagged "Block" line.toJson
  | rule line => tagged "Rule" line.toJson
  | unknown text => tagged "Unknown" (text.toJson "text" ofText)
where
  /-- An object with a type and data. -/
  tagged (type : String) (data : Json) : Json :=
    object [("type", string type), ("data", data)]

/-- A classified line as an object. -/
def LineResult.toJson (result : LineResult Range) : Json :=
  object <|
    [("kind", result.kind.toJson),
     ("diagnostics", array (result.diagnostics.map Diagnostic.toJson)),
     ("invalid", boolean result.invalid)] ++
    if result.edits.isEmpty then [] else [("edits", array (result.edits.map TextEdit.toJson))]

end ItemFilter
