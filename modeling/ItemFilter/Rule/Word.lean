import ItemFilter.Catalog
import ItemFilter.Rule.Outcome

/-!
# Rules with words

Four rules take words: a truth value, a string out of a list, a group of socket letters, and a list
of names that the catalog covers.

## Main definitions

* `Rule.boolean`, `Rule.oneOf`, `Rule.socketGroup`, `Rule.catalogList`: the four rules
* `Rule.isSocketGroup`: what counts as a group of sockets
-/

namespace ItemFilter.Rule

open Outcome Text

/-- An argument is no value of its rule. -/
def wrongWord (keyword : Keyword) (span : Span) : Diagnostic Span :=
  { severity := .error
    range := span
    excerpt := s!"Invalid value for \"{keyword.name}\" rule."
    page := some .conditions }

/-- A truth value. -/
def boolean (keyword : Keyword) (cursor : Cursor) : Outcome × Cursor :=
  withEquality keyword cursor fun operator cursor =>
    let outcome : Outcome := { operator }
    let (truth, cursor) := cursor.boolean
    let outcome :=
      match truth with
      | some truth => outcome.accept (truth.map .boolean)
      | none =>
        outcome.report
          { badFormat keyword "<Boolean>" .conditions cursor with
            description := some "A Boolean is a binary value that can be either 'True' or 'False'" }
    rejectComment keyword outcome cursor

/-- Reads a string that is no comment. -/
def argument (cursor : Cursor) : Option (Token Text) × Cursor :=
  if cursor.isCommented then (none, cursor) else cursor.string

/-- One string out of a list, in any case, possibly behind an operator. -/
def oneOf (keyword : Keyword) (allowed : List String) (cursor : Cursor) : Outcome × Cursor :=
  let (operator, cursor) := cursor.operator
  let outcome : Outcome := { operator }
  match argument cursor with
  | (none, cursor) =>
    (outcome.report (badFormat keyword "[Operator] <Text>" .conditions cursor), cursor)
  | (some word, cursor) =>
    let outcome :=
      if allowed.any fun choice => Cursor.sameIgnoringCase choice.toList word.value then
        outcome.accept (word.map .text)
      else
        let choices := String.join (allowed.map fun choice => "\n\t" ++ choice)
        outcome.report
          { wrongWord keyword word.range with
            description := some ("The following values are valid for this rule:\n" ++ choices) }
    rejectComment keyword outcome cursor

/-- Whether a letter stands for the colour of a socket. -/
def isSocketLetter (c : Char) : Bool :=
  ['R', 'G', 'B', 'W'].contains c.toUpper

/-- Whether a word is a group of one to six sockets. -/
def isSocketGroup (word : Text) : Bool :=
  1 ≤ word.length && word.length ≤ 6 && word.all isSocketLetter

/-- A group of socket letters. -/
def socketGroup (keyword : Keyword) (cursor : Cursor) : Outcome × Cursor :=
  withEquality keyword cursor fun operator cursor =>
    let outcome : Outcome := { operator }
    match argument cursor with
    | (none, cursor) => (outcome.report (badFormat keyword "<Group>" .conditions cursor), cursor)
    | (some word, cursor) =>
      let outcome :=
        if isSocketGroup word.value then outcome.accept (word.map .text)
        else
          outcome.report
            { wrongWord keyword word.range with
              excerpt := s!"Invalid value for \"{keyword.name}\" rule. " ++
                "Valid characters are: R, G, B, W." }
      rejectComment keyword outcome cursor

/-- Whether a word may be used as a name. The empty word is part of every name and may not. -/
def isKnownName (names : NameSet) (word : Text) : Bool :=
  !word.isEmpty && names.covers word

/-- A list of names. Each name is accepted or reported on its own. -/
def catalogList (keyword : Keyword) (names : NameSet) (cursor : Cursor) : Outcome × Cursor :=
  withEquality keyword cursor fun operator cursor =>
    let (words, cursor) := cursor.arguments
    let (known, unknown) := words.partition fun word => isKnownName names word.value
    let outcome : Outcome :=
      { operator
        values := known.map fun word => word.map .text
        diagnostics := unknown.map fun word => wrongWord keyword word.range }
    let outcome :=
      if words.isEmpty then
        outcome.report
          { badFormat keyword "<Text>..." .conditions cursor with
            description := some <|
              s!"The '{keyword.name}' keyword should be followed by a list of words or strings." ++
              "\n\nAny value consisting of multiple words should be surrounded by double " ++
              "quotation marks." }
      else outcome
    rejectComment keyword outcome cursor

end ItemFilter.Rule
