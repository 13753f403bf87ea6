import Mathlib.Data.List.Forall2
import ItemFilter.Command.Run
import ItemFilter.Proofs.JsonText

/-!
# What is found, in JSON

What a command prints in JSON is read back as a value, and what was found is read off the members of
that value: ranges, edits, fixes and problems as they were, the counts of a file, and the files of a
check in their order. So whoever reads the output knows of a problem what the program knows of it.

## Main definitions

* `Json.member?`, `Json.items`, `Json.characters`, `Json.count`: the parts of a value
* `Diagnostic.ofJson`, `Report.ofJson`: a problem and counts, read off an object
* `Json.TellsResult`, `Json.TellsFiles`: what a value tells of a line, and of checked files
* `RunOutcome.PrintsJson`: the output of a run, read back

## Main results

* `Context.read?_printed`: a value that is printed is read back
* `Diagnostic.ofJson_toJson`: a problem is told as it is
* `tellsFiles_checkJson`: all that a check found is told
-/

namespace ItemFilter

/-! ## The parts of a value -/

namespace Json

/-- The member of an object with a name. -/
def member? (name : String) : Json → Option Json
  | object members => members.lookup name
  | _ => none

/-- The member of an object with a name, which should be there. -/
def member (name : String) (value : Json) : Json :=
  (value.member? name).getD (object [])

/-- The items of an array. -/
def items : Json → List Json
  | array items => items
  | _ => []

/-- The characters of a string. -/
def characters : Json → String
  | string s => s
  | _ => ""

/-- The count that is written as a number. -/
def count : Json → Nat
  | number n => n.toNat
  | _ => 0

end Json

/-! ## Edits and problems -/

/-- The range that an object stands for. -/
def Range.ofJson (value : Json) : Range :=
  ⟨(value.member "line").count, (value.member "start").count, (value.member "end").count⟩

@[simp] theorem Range.ofJson_toJson (range : Range) : ofJson range.toJson = range := rfl

/-- The edit that an object stands for. -/
def TextEdit.ofJson (value : Json) : TextEdit Range :=
  ⟨Range.ofJson (value.member "range"), (value.member "old_text").characters.toList,
    (value.member "new_text").characters.toList⟩

@[simp] theorem TextEdit.ofJson_toJson (edit : TextEdit Range) : ofJson edit.toJson = edit := by
  have hrange : edit.toJson.member "range" = edit.range.toJson := rfl
  have hold : edit.toJson.member "old_text" = .string (String.ofList edit.oldText) := rfl
  have hnew : edit.toJson.member "new_text" = .string (String.ofList edit.newText) := rfl
  rw [ofJson, hrange, hold, hnew, Range.ofJson_toJson, Json.characters, Json.characters,
    String.toList_ofList, String.toList_ofList]

/-- The fix that an object stands for. -/
def Fix.ofJson (value : Json) : Fix Range :=
  ⟨TextEdit.ofJson value, (value.member "title").characters⟩

@[simp] theorem Fix.ofJson_toJson (fix : Fix Range) : ofJson fix.toJson = fix := by
  have hedit : TextEdit.ofJson fix.toJson = TextEdit.ofJson fix.edit.toJson := rfl
  rw [ofJson, hedit, TextEdit.ofJson_toJson]
  rfl

/-- The severity with a name. -/
def Severity.ofName (name : String) : Severity :=
  if name = "error" then .error else .warning

@[simp] theorem Severity.ofName_name (severity : Severity) : ofName severity.name = severity := by
  cases severity <;> rfl

/-- The page with an address. -/
def Page.ofAddress? (address : String) : Option Page :=
  [overview, conditions, actions, guide].find? fun page => page.address == address

@[simp] theorem Page.ofAddress?_address (page : Page) : ofAddress? page.address = some page := by
  cases page <;> rfl

namespace Diagnostic

/-- The problem that an object stands for. -/
def ofJson (value : Json) : Diagnostic Range where
  severity := Severity.ofName (value.member "severity").characters
  file := (value.member? "file").map Json.characters
  range := Range.ofJson (value.member "range")
  excerpt := (value.member "excerpt").characters
  description := (value.member? "description").map Json.characters
  page := (value.member? "url").bind fun address => Page.ofAddress? address.characters
  fix := (value.member? "fix").map Fix.ofJson

variable (d : Diagnostic Range)

theorem member_severity : d.toJson.member "severity" = .string d.severity.name := rfl

theorem member?_file : d.toJson.member? "file" = d.file.map Json.string := by
  rcases d with ⟨-, _ | file, -, -, _ | description, _ | page, _ | fix⟩ <;> rfl

theorem member_range : d.toJson.member "range" = d.range.toJson := by
  rcases d with ⟨-, _ | file, -, -, -, -, -⟩ <;> rfl

theorem member_excerpt : d.toJson.member "excerpt" = .string d.excerpt := by
  rcases d with ⟨-, _ | file, -, -, -, -, -⟩ <;> rfl

theorem member?_description :
    d.toJson.member? "description" = d.description.map Json.string := by
  rcases d with ⟨-, _ | file, -, -, _ | description, _ | page, _ | fix⟩ <;> rfl

theorem member?_url :
    d.toJson.member? "url" = d.page.map fun page => .string page.address := by
  rcases d with ⟨-, _ | file, -, -, _ | description, _ | page, _ | fix⟩ <;> rfl

theorem member?_fix : d.toJson.member? "fix" = d.fix.map Fix.toJson := by
  rcases d with ⟨-, _ | file, -, -, _ | description, _ | page, _ | fix⟩ <;> rfl

/-- A problem is told as it is. -/
@[simp] theorem ofJson_toJson : ofJson d.toJson = d := by
  have hstrings (s : Option String) : (s.map Json.string).map Json.characters = s := by
    cases s <;> rfl
  have hpage : ((d.page.map fun page => Json.string page.address).bind fun address =>
      Page.ofAddress? address.characters) = d.page := by
    cases d.page with
    | none => rfl
    | some page => exact page.ofAddress?_address
  have hfix : (d.fix.map Fix.toJson).map Fix.ofJson = d.fix := by
    cases d.fix with
    | none => rfl
    | some fix => exact congrArg some fix.ofJson_toJson
  rw [ofJson, member_severity, member?_file, member_range, member_excerpt, member?_description,
    member?_url, member?_fix, hstrings, hstrings, hpage, hfix, Range.ofJson_toJson,
    Json.characters, Json.characters, Severity.ofName_name]

end Diagnostic

theorem map_ofJson_toJson (diagnostics : List (Diagnostic Range)) :
    (diagnostics.map Diagnostic.toJson).map Diagnostic.ofJson = diagnostics := by
  simp [Function.comp_def]

/-! ## Lines and files -/

/-- What a value tells of a line: its problems, its edits, and whether it is invalid. -/
structure Json.TellsResult (value : Json) (result : LineResult Range) : Prop where
  /-- The problems are listed as they were found. -/
  diagnostics_eq : (value.member "diagnostics").items.map Diagnostic.ofJson = result.diagnostics
  /-- So are the edits. -/
  edits_eq : (value.member "edits").items.map TextEdit.ofJson = result.edits
  /-- It is told whether the line is invalid. -/
  invalid_eq : value.member? "invalid" = some (.boolean result.invalid)

theorem LineResult.tellsResult_toJson (result : LineResult Range) :
    result.toJson.TellsResult result where
  diagnostics_eq := map_ofJson_toJson result.diagnostics
  edits_eq := by
    cases hedits : result.edits with
    | nil =>
      have hnone : result.toJson.member "edits" = .object [] := by
        rw [toJson, hedits]
        rfl
      rw [hnone]
      rfl
    | cons edit edits =>
      have hsome : result.toJson.member "edits" =
          .array ((edit :: edits).map TextEdit.toJson) := by
        rw [toJson, hedits]
        rfl
      rw [hsome, Json.items]
      simp [Function.comp_def]
  invalid_eq := rfl

/-- The counts that an object stands for. -/
def Report.ofJson (value : Json) : Report where
  lines := (value.member "lines").count
  errors := (value.member "errors").count
  warnings := (value.member "warnings").count
  invalidLines := (value.member "invalid_lines").count

@[simp] theorem Report.ofJson_toJson (report : Report) : ofJson report.toJson = report := rfl

/-- What a value tells of a file that was checked. -/
structure Json.TellsFile (value : Json) (file : CheckedFile) : Prop where
  /-- The path is told. -/
  path_eq : value.member? "path" = some (.string file.path)
  /-- The problems are listed in the order in which they were found. -/
  diagnostics_eq : (value.member "diagnostics").items.map Diagnostic.ofJson = file.diagnostics
  /-- The counts are told. -/
  report_eq : Report.ofJson (value.member "report") = file.report
  /-- The number of fixes is told. -/
  fixed_eq : (value.member "fixed").count = file.fixed
  /-- It is told whether the file was written. -/
  saved_eq : value.member? "saved" = some (.boolean file.saved)

/-- What a value tells of the files of a check. -/
structure Json.TellsFiles (value : Json) (files : List CheckedFile) : Prop where
  /-- The files are listed in their order. -/
  files_eq : List.Forall₂ Json.TellsFile (value.member "files").items files
  /-- The counts of all files together are told. -/
  summary_eq : Report.ofJson (value.member "summary") = totalReport files

theorem CheckedFile.tellsFile_toJson (file : CheckedFile) : file.toJson.TellsFile file :=
  ⟨rfl, map_ofJson_toJson file.diagnostics, rfl, rfl, rfl⟩

/-- All that a check found is told. -/
theorem tellsFiles_checkJson (files : List CheckedFile) : (checkJson files).TellsFiles files where
  files_eq := by
    have hfiles : ((checkJson files).member "files").items = files.map CheckedFile.toJson := rfl
    rw [hfiles, List.forall₂_map_left_iff]
    exact List.forall₂_same.mpr fun file _ => file.tellsFile_toJson
  summary_eq := rfl

/-! ## Printed values -/

/-- A value that is printed is read back. -/
theorem Context.read?_printed (value : Json) : Json.read? (printed value).toList = some value := by
  have hbreak : ∀ c ∈ ['\n'], Json.isSpace c = true := List.forall_mem_singleton.mpr rfl
  rw [printed, String.toList_append]
  exact Json.read?_render value hbreak

/-- The output of a run is JSON that tells something. -/
def RunOutcome.PrintsJson (outcome : RunOutcome) (told : Json → Prop) : Prop :=
  ∃ value, Json.read? outcome.output.toList = some value ∧ told value

end ItemFilter
