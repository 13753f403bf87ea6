import ItemFilter.Text.Bytes
import ItemFilter.Text.Split

/-!
# Paths

A path is written as parts with slashes between them. A part is the name of an entry, two dots
lead back to the directory around, and a single dot stays in a directory, which has to be there.
Empty parts lead nowhere and are left out.

## Main definitions

* `Step`: one step of a path
* `Path`: where a path starts, and its steps
* `Path.ofString`: the path written by a string
* `Path.stepsToFile`: the steps to a file that is to be written
* `Path.around`: the path of the directory around, as a string
* `Path.join`: the path of an entry of a directory, as a string
-/

namespace ItemFilter

/-- One step of a path. -/
inductive Step where
  /-- Out of a directory into the one around it. -/
  | up
  /-- Nowhere, from a directory. -/
  | stay
  /-- To the entry of a directory with this name. -/
  | into (name : String)
  deriving DecidableEq, Repr

/-- A path, taken apart. -/
structure Path where
  /-- Whether the path starts at the root and not at the working directory. -/
  fromRoot : Bool
  /-- The steps from there on. -/
  steps : List Step
  /-- Whether a slash at the end demands a directory. -/
  endsInSlash : Bool
  deriving DecidableEq, Repr

namespace Path

/-- The step that a part between slashes stands for, if it is one. -/
def step? (part : Text) : Option Step :=
  if part = [] then none
  else if part = ['.'] then some .stay
  else if part = ['.', '.'] then some .up
  else some (.into (String.ofList part))

/-- The path written by a string. -/
def ofString (path : String) : Path :=
  let parts := Text.pieces '/' path.toList
  { fromRoot := path.toList.head? = some '/'
    steps := parts.filterMap step?
    endsInSlash := parts.getLast? = some [] }

/-- The steps to a file that is to be written. A name with a slash behind it is the name of no
file, so that such a path leads to the directory where the file would be. -/
def stepsToFile (path : Path) : List Step :=
  match path.endsInSlash, path.steps.getLast? with
  | true, some (.into _) => path.steps.dropLast ++ [.stay]
  | _, _ => path.steps

/-- Whether a part between slashes leads nowhere. -/
def isIdle (part : Text) : Bool :=
  part = [] || part = ['.']

/-- The directory around what a path leads to, as far as the path has it: the beginning of the path
as it is written, up to the name before the last. -/
def around (path : String) : String :=
  let parts := (Text.pieces '/' path.toList).reverse.dropWhile isIdle
  String.ofList (Text.joinWith ['/'] (parts.tail.dropWhile isIdle).reverse)

/-- The path of an entry of a directory. No second slash is put behind a slash, and the empty path
stands for the working directory. -/
def join (directory entry : String) : String :=
  if directory = "" || directory.toList.getLast? = some '/' then directory ++ entry
  else directory ++ "/" ++ entry

end Path

end ItemFilter
