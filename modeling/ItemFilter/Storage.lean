import ItemFilter.Storage.Path

/-!
# Storage

The files and directories that a command sees, as a value: a command takes a storage and gives back
the storage after it. An entry is found at a place, the names that lead to it from the root, and a
path is followed to a place through directories that exist.

## Main definitions

* `Storage`: the entries and the working directory
* `Storage.locate`: the place a path leads to
* `Storage.read`, `Storage.readText`, `Storage.has`: what there is at a path
* `Storage.write`, `Storage.makeParents`: a storage with a file written, and with the directories
  around a path
* `Storage.changes`: what became of a storage

## Main results

* `Storage.get?_set`: setting an entry changes that entry and no other
-/

namespace ItemFilter

/-- What there can be at a place. -/
inductive Entry where
  /-- A file with its bytes. -/
  | file (bytes : ByteArray)
  /-- A directory. -/
  | directory

/-- Files are compared byte by byte. -/
instance : DecidableEq Entry
  | .file a, .file b =>
    match ByteArray.instDecidableEq a b with
    | isTrue h => isTrue (by rw [h])
    | isFalse h => isFalse fun e => h (Entry.file.inj e)
  | .directory, .directory => isTrue rfl
  | .file _, .directory => isFalse nofun
  | .directory, .file _ => isFalse nofun

/-- The names that lead from the root to an entry. -/
abbrev Place := List String

/-- Why a path cannot be used as it was meant. -/
inductive StorageError where
  /-- An entry on the way or at the end is not there. -/
  | notFound
  /-- The way leads through a file. -/
  | notDirectory
  /-- The path leads to a directory. -/
  | isDirectory
  /-- There is something at the path. -/
  | alreadyExists
  /-- A name or the whole path is too long. -/
  | nameTooLong
  /-- The path has a null character in it. -/
  | nullCharacter
  /-- The file is no UTF-8 text. -/
  | notText
  deriving DecidableEq, Repr

/-- The wording of a storage error. -/
def StorageError.message : StorageError → String
  | notFound => "No such file or directory (os error 2)"
  | notDirectory => "Not a directory (os error 20)"
  | isDirectory => "Is a directory (os error 21)"
  | alreadyExists => "File exists (os error 17)"
  | nameTooLong => "File name too long (os error 36)"
  | nullCharacter => "file name contained an unexpected NUL byte"
  | notText => "stream did not contain valid UTF-8"

/-- The entries there are, the root apart, and the working directory. -/
structure Storage where
  /-- Every entry with its place. -/
  entries : List (Place × Entry) := []
  /-- The place that relative paths start from. -/
  workingDirectory : Place := []

namespace Storage

/-- The entry at a place. The root is a directory. -/
def get? (storage : Storage) (place : Place) : Option Entry :=
  if place = [] then some .directory else storage.entries.lookup place

/-- The entries of a list with one of them set: in its old place, or at the end. -/
def setIn (place : Place) (entry : Entry) : List (Place × Entry) → List (Place × Entry)
  | [] => [(place, entry)]
  | (other, old) :: entries =>
    if place = other then (place, entry) :: entries else (other, old) :: setIn place entry entries

/-- The storage with the entry at a place set. -/
def set (storage : Storage) (place : Place) (entry : Entry) : Storage :=
  { storage with entries := setIn place entry storage.entries }

theorem lookup_setIn (place other : Place) (entry : Entry) (entries : List (Place × Entry)) :
    (setIn place entry entries).lookup other =
      if other = place then some entry else entries.lookup other := by
  induction entries with
  | nil => grind [setIn]
  | cons first entries ih => grind [setIn]

/-- Setting an entry changes that entry and no other. -/
theorem get?_set (storage : Storage) {place : Place} (hplace : place ≠ []) (entry : Entry)
    (other : Place) :
    (storage.set place entry).get? other =
      if other = place then some entry else storage.get? other := by
  by_cases h : other = [] <;> simp_all [get?, set, lookup_setIn, eq_comm]

/-! ## Following a path -/

/-- The length in bytes that no name may exceed. -/
def longestName : Nat := 255

/-- The length in bytes that every path stays below. -/
def pathLimit : Nat := 4096

/-- The place that steps lead to. What the steps lead through has to be directories that exist, and
at the end there may be anything or nothing. -/
def follow (storage : Storage) (here : Place) : List Step → Except StorageError Place
  | [] => .ok here
  | step :: steps =>
    match storage.get? here with
    | none => .error .notFound
    | some (.file _) => .error .notDirectory
    | some .directory =>
      match step with
      | .up => storage.follow here.dropLast steps
      | .stay => storage.follow here steps
      | .into name =>
        if longestName < name.utf8ByteSize then .error .nameTooLong
        else storage.follow (here ++ [name]) steps

/-- The place that a path starts from. -/
def start (storage : Storage) (path : Path) : Place :=
  if path.fromRoot then [] else storage.workingDirectory

/-- The path written by a string, if it is one that can be followed at all. -/
def pathOf (path : String) : Except StorageError Path :=
  if path.toList.contains '\x00' then .error .nullCharacter
  else if path = "" then .error .notFound
  else if pathLimit ≤ path.utf8ByteSize then .error .nameTooLong
  else .ok (Path.ofString path)

/-- The place a path leads to, whether or not there is something. -/
def locate (storage : Storage) (path : String) : Except StorageError Place :=
  match pathOf path with
  | .error e => .error e
  | .ok parts =>
    match storage.follow (storage.start parts) parts.steps with
    | .error e => .error e
    | .ok place =>
      match storage.get? place, parts.endsInSlash with
      | some (.file _), true => .error .notDirectory
      | _, _ => .ok place

/-! ## Files -/

/-- The bytes of the file at a path. -/
def read (storage : Storage) (path : String) : Except StorageError ByteArray :=
  match storage.locate path with
  | .error e => .error e
  | .ok place =>
    match storage.get? place with
    | none => .error .notFound
    | some .directory => .error .isDirectory
    | some (.file bytes) => .ok bytes

/-- The text of the file at a path. -/
def readText (storage : Storage) (path : String) : Except StorageError String :=
  match storage.read path with
  | .error e => .error e
  | .ok bytes =>
    match String.fromUTF8? bytes with
    | some text => .ok text
    | none => .error .notText

/-- Whether there is something at a path. -/
def has (storage : Storage) (path : String) : Bool :=
  match storage.locate path with
  | .error _ => false
  | .ok place => (storage.get? place).isSome

/-- The storage with a text written to the file at a path, which may be new. -/
def write (storage : Storage) (path text : String) : Except StorageError Storage :=
  match pathOf path with
  | .error e => .error e
  | .ok parts =>
    match storage.follow (storage.start parts) parts.stepsToFile with
    | .error e => .error e
    | .ok place =>
      match storage.get? place with
      | some .directory => .error .isDirectory
      | _ => .ok (storage.set place (.file text.toUTF8))

/-! ## Directories -/

/-- A storage in which steps from a directory lead through directories, those made that were not
there. What was made before a failure stays. A file in the way is no directory; but if it is where
the steps end, or if directories had to be made before it, then it is there instead of the
directory to make. -/
def makeDirectories (storage : Storage) (here : Place) (made : Bool) :
    List Step → Except StorageError Unit × Storage
  | [] => (.ok (), storage)
  | .up :: steps => storage.makeDirectories here.dropLast made steps
  | .stay :: steps => storage.makeDirectories here made steps
  | .into name :: steps =>
    if longestName < name.utf8ByteSize then (.error .nameTooLong, storage)
    else
      let place := here ++ [name]
      match storage.get? place with
      | some .directory => storage.makeDirectories place made steps
      | some (.file _) =>
        (.error (if made || steps.isEmpty then .alreadyExists else .notDirectory), storage)
      | none => (storage.set place .directory).makeDirectories place true steps

/-- A storage with the directories around a path. -/
def makeParents (storage : Storage) (path : String) : Except StorageError Unit × Storage :=
  let around := Path.around path
  if around = "" then (.ok (), storage)
  else
    match pathOf around with
    | .error e => (.error e, storage)
    | .ok parts => storage.makeDirectories (storage.start parts) false parts.steps

/-! ## Changes -/

/-- The entries of a storage that another did not have in this form. -/
def changes (before after : Storage) : List (Place × Entry) :=
  after.entries.filter fun (place, entry) => before.get? place != some entry

end Storage

end ItemFilter
