import ItemFilter.Text.Blank

/-!
# TOML values

A configuration is written in TOML. Of numbers with a fraction and of dates only the kind is kept,
since no setting has such a value.

## Main definitions

* `Toml.Value`: a value
* `Toml.member?`: a member of a table
-/

namespace ItemFilter.Toml

/-- A TOML value. -/
inductive Value where
  /-- A string. -/
  | string (text : Text)
  /-- An integer. -/
  | integer (n : Int)
  /-- A number with a fraction or an exponent, an infinity, or no number. -/
  | float
  /-- A truth value. -/
  | boolean (b : Bool)
  /-- A date, a time, or both. -/
  | dateTime
  /-- A list of values. -/
  | array (items : List Value)
  /-- A table, with its keys in the order they were defined. -/
  | table (members : List (Text × Value))

/-- The member of a table with the given key. -/
def member? (key : String) (members : List (Text × Value)) : Option Value :=
  (members.find? fun (name, _) => name == key.toList).map fun (_, value) => value

end ItemFilter.Toml
