import ItemFilter.Catalog.Reader
import ItemFilter.Command.Error
import ItemFilter.CommandLine
import ItemFilter.Document.Fixing
import ItemFilter.Document.Linting

/-!
# Checking files

Files are linted one after another. With fixes wanted, each file is fixed, linted again, and written
if it changed, before the next one is looked at. The first file that cannot be handled ends the
check, and the files written before it stay written.

## Main definitions

* `Config.loadCatalog`: the catalog that a configuration asks for
* `CheckedFile`: what became of a file
* `Classifier.checkDocument`: a document linted and possibly fixed
* `Classifier.checkFile`, `Classifier.checkFiles`: files checked in a storage
-/

namespace ItemFilter

/-- The catalog of a file. -/
def Catalog.load (storage : Storage) (path : String) : Except CommandError Catalog :=
  match storage.readText path with
  | .error e => .error (.unreadableCatalog path e)
  | .ok text =>
    match Catalog.ofJson? text.toList with
    | some catalog => .ok catalog
    | none => .error .malformedCatalog

namespace Config

/-- The catalog to use: that of the path given, or else of the configured path, or else the built-in
one, with the configured names. -/
def loadCatalog (config : Config) (storage : Storage) (path : Option String) :
    Except CommandError Catalog :=
  match path.or config.catalog with
  | some path => (Catalog.load storage path).map config.extend
  | none => .ok (config.extend .builtin)

/-- The classifier to use. Warnings are left out if the flag or the configuration says so. -/
def classifier (config : Config) (storage : Storage) (path : Option String) (noWarnings : Bool) :
    Except CommandError Classifier :=
  (config.loadCatalog storage path).map fun catalog =>
    { catalog, warnings := !noWarnings && config.enableWarnings.getD true }

end Config

/-- What became of a file. -/
structure CheckedFile where
  /-- The path as it was given. -/
  path : String
  /-- The lines, after fixes if they were made. -/
  results : List (LineResult Range)
  /-- The number of fixes made. -/
  fixed : Nat
  /-- Whether the file was written. -/
  saved : Bool

namespace CheckedFile

/-- The counts of a file. -/
def report (file : CheckedFile) : Report :=
  Report.ofResults file.results

/-- The problems of a file, line by line. -/
def diagnostics (file : CheckedFile) : List (Diagnostic Range) :=
  file.results.flatMap LineResult.diagnostics

end CheckedFile

namespace Classifier

/-- A document after linting and fixing. -/
structure Checked where
  /-- The lines of the document as it is now. -/
  results : List (LineResult Range)
  /-- The number of fixes made. -/
  fixed : Nat
  /-- The document as it is now. -/
  document : Document

/-- Lints a document and makes the fixes that were suggested. If there were any, it is linted again,
for what is left. -/
def fixDocument (c : Classifier) (file : Option String) (document : Document) :
    Except DocumentError Checked := do
  let (results, linted) := document.lint c file
  let results ← results
  let (count, fixed) := linted.applyFixes (results.map fun result => result.fixes.map Fix.edit)
  let count ← count
  if count = 0 then return ⟨results, count, fixed⟩
  else
    let (results, last) := fixed.lint c file
    return ⟨← results, count, last⟩

/-- Lints a document and makes fixes if they are wanted. -/
def checkDocument (c : Classifier) (fix : Bool) (file : Option String) (document : Document) :
    Except DocumentError Checked :=
  if fix then c.fixDocument file document
  else
    let (results, linted) := document.lint c file
    results.map fun results => ⟨results, 0, linted⟩

/-- Checks the file at a path. It is written only if fixes are wanted and its text changed. -/
def checkFile (c : Classifier) (fix : Bool) (path : String) (storage : Storage) :
    Except CommandError (CheckedFile × Storage) :=
  match storage.readText path with
  | .error e => .error (.unreadable path e)
  | .ok text =>
    let document := Document.parse text.toList
    match c.checkDocument fix (some path) document with
    | .error e => .error (.document e)
    | .ok checked =>
      let contents := checked.document.contents
      if fix ∧ contents ≠ document.contents then
        match storage.write path (String.ofList contents) with
        | .error e => .error (.unwritable path e)
        | .ok storage => .ok (⟨path, checked.results, checked.fixed, true⟩, storage)
      else .ok (⟨path, checked.results, checked.fixed, false⟩, storage)

/-- Checks files one after another, up to the first failure. -/
def checkFiles (c : Classifier) (fix : Bool) :
    List String → Storage → Except CommandError (List CheckedFile) × Storage
  | [], storage => (.ok [], storage)
  | path :: paths, storage =>
    match c.checkFile fix path storage with
    | .error e => (.error e, storage)
    | .ok (file, storage) =>
      let (files, last) := c.checkFiles fix paths storage
      (files.map (file :: ·), last)

end Classifier

/-- The counts of all files together. -/
def totalReport (files : List CheckedFile) : Report :=
  files.foldl (fun report file => report + file.report) {}

end ItemFilter
