import ItemFilter.Toml.Number
import ItemFilter.Toml.Tree

/-!
# Reading TOML

A document is a sequence of statements, one on a line: headers of tables, headers of tables in
arrays, and keys with values. The statements are read first and carried out afterwards. Nesting is
limited, and so is the length of a dotted key.

## Main definitions

* `Toml.readKey`: a key, possibly a dotted one
* `Toml.readValue`: a value
* `Toml.Statement`, `Toml.readStatements`: the statements of a document
* `Toml.read`: the table that a document describes
-/

namespace ItemFilter.Toml

/-! ## Keys -/

/-- Whether a character may stand in a key without quotes. -/
def isKeyChar (c : Char) : Bool :=
  c.isAlphanum || c == '-' || c == '_'

/-- Reads one part of a key. -/
def readKeyPart (text : Text) : Option (Text × Text) :=
  match text with
  | '"' :: _ => readBasic text
  | '\'' :: _ => readLiteral text
  | _ =>
    let part := text.takeWhile isKeyChar
    if part.isEmpty then none else some (part, text.drop part.length)

/-- Reads the parts of a key, with dots between them and blanks around them. -/
def readKeyParts : Nat → Text → Option (List Text × Text)
  | 0, _ => none
  | fuel + 1, text => do
    let (part, text) ← readKeyPart (skipBlanks text)
    match skipBlanks text with
    | '.' :: text =>
      let (parts, rest) ← readKeyParts fuel text
      some (part :: parts, rest)
    | rest => some ([part], rest)

/-- The depth that neither values nor keys may reach. -/
def depthLimit : Nat := 80

/-- Reads a key: the parts in front of the last dot, and the last part. -/
def readKey (text : Text) : Option ((List Text × Text) × Text) := do
  let (parts, rest) ← readKeyParts (text.length + 1) text
  if depthLimit ≤ parts.length then none
  else
    let last ← parts.getLast?
    some ((parts.dropLast, last), rest)

/-! ## Values -/

/-- A key with its value. -/
structure Assignment where
  /-- The parts of the key in front of its last dot. -/
  path : List Text
  /-- The last part of the key. -/
  key : Text
  /-- The value. -/
  value : Value

/-- Reads a key, an equals sign, and a value by the given reader. -/
def readAssignment (readValue : Text → Option (Value × Text)) (text : Text) :
    Option (Assignment × Text) := do
  let ((path, key), text) ← readKey text
  let text ← skipChar '=' text
  let (value, rest) ← readValue (skipBlanks text)
  some (⟨path, key, value⟩, rest)

/-- Reads the items of an array and its closing bracket. A comma may stand behind the last item. -/
def readItems (readValue : Text → Option (Value × Text)) : Nat → Text → Option (List Value × Text)
  | 0, _ => none
  | fuel + 1, text =>
    match skipLines text with
    | ']' :: rest => some ([], rest)
    | text => do
      let (item, text) ← readValue text
      match skipLines text with
      | ']' :: rest => some ([item], rest)
      | ',' :: text =>
        let (items, rest) ← readItems readValue fuel text
        some (item :: items, rest)
      | _ => none

/-- Reads the members of a table in braces and its closing brace. The members are in one line, and
no comma stands behind the last. -/
def readMembers (readValue : Text → Option (Value × Text)) :
    Nat → Text → Option (List Assignment × Text)
  | 0, _ => none
  | fuel + 1, text => do
    let (member, text) ← readAssignment readValue text
    match skipBlanks text with
    | '\x7d' :: rest => some ([member], rest)
    | ',' :: text =>
      let (members, rest) ← readMembers readValue fuel text
      some (member :: members, rest)
    | _ => none

/-- The table that assignments make up. -/
def Table.ofAssignments? (assignments : List Assignment) : Option Table :=
  assignments.foldlM (fun table a => table.assign a.path a.key a.value) {}

/-- The text behind the given characters. -/
def skipWord : List Char → Text → Option Text
  | [], text => some text
  | c :: word, text => (skipChar c text).bind (skipWord word)

/-- Reads a value inside which at most `depth` arrays and tables are open. -/
def readValue : Nat → Text → Option (Value × Text)
  | depth, text =>
    match text with
    | [] => none
    | c :: rest =>
      if c = '"' ∨ c = '\'' then (readString text).map fun (s, rest) => (.string s, rest)
      else if c = '[' then
        match depth with
        | 0 => none
        | depth + 1 =>
          (readItems (readValue depth) (rest.length + 1) rest).map fun (items, rest) =>
            (.array items, rest)
      else if c = '\x7b' then
        match depth with
        | 0 => none
        | depth + 1 =>
          match skipBlanks rest with
          | '\x7d' :: rest => some (.table [], rest)
          | text => do
            let (members, rest) ← readMembers (readValue depth) (text.length + 1) text
            let table ← Table.ofAssignments? members
            some (.table table.members, rest)
      else if c = 't' then (skipWord "true".toList text).map fun rest => (.boolean true, rest)
      else if c = 'f' then (skipWord "false".toList text).map fun rest => (.boolean false, rest)
      else readNumber text

/-! ## Documents -/

/-- One statement of a document. -/
inductive Statement where
  /-- The header of a table. -/
  | table (path : List Text) (key : Text)
  /-- The header of a further table in an array. -/
  | arrayTable (path : List Text) (key : Text)
  /-- A key with its value. -/
  | assignment (assignment : Assignment)

/-- Reads a statement up to its last character. -/
def readStatement : Text → Option (Statement × Text)
  | '[' :: '[' :: text => do
    let ((path, key), text) ← readKey text
    let rest ← skipWord [']', ']'] text
    some (.arrayTable path key, rest)
  | '[' :: text => do
    let ((path, key), text) ← readKey text
    let rest ← skipChar ']' text
    some (.table path key, rest)
  | text => do
    let (assignment, rest) ← readAssignment (readValue (depthLimit - 1)) text
    some (.assignment assignment, rest)

/-- Reads the statements of a document up to its end. -/
def readStatementsWith : Nat → Text → Option (List Statement)
  | 0, _ => none
  | fuel + 1, text =>
    match skipLines text with
    | [] => some []
    | text =>
      match skipComment text with
      | [] => some []
      | text => do
        let (statement, text) ← readStatement text
        let rest ← lineEnd? text
        let statements ← readStatementsWith fuel rest
        some (statement :: statements)

/-- Reads the statements of a document. A byte order mark may stand in front. -/
def readStatements (text : Text) : Option (List Statement) :=
  match text with
  | '\ufeff' :: text => readStatementsWith (text.length + 1) text
  | text => readStatementsWith (text.length + 1) text

/-- A document with the statements so far carried out. -/
structure Progress where
  /-- The table of the whole document. -/
  root : Table := {}
  /-- The keys of the last header. -/
  header : List Text := []

/-- Carries out one statement. -/
def Progress.step (progress : Progress) : Statement → Option Progress
  | .table path key => do
    let root ← progress.root.openTable path key
    some ⟨root, path ++ [key]⟩
  | .arrayTable path key => do
    let root ← progress.root.openArray path key
    some ⟨root, path ++ [key]⟩
  | .assignment a => do
    let root ← progress.root.assignAt progress.header a.path a.key a.value
    some { progress with root }

/-- The members of the table that a document describes. -/
def read (text : Text) : Option (List (Text × Value)) := do
  let statements ← readStatements text
  let progress ← statements.foldlM Progress.step {}
  some progress.root.members

end ItemFilter.Toml
