import ItemFilter.Command.Run
import ItemFilter.Proofs.Linewise
import ItemFilter.Proofs.Places

/-!
# Columns in a stored file

A check that makes no fixes leaves every file as it is, while the columns it reports are those of
the lines with their colours expanded. On a line with an expanded colour every problem is behind
the channels, as there is nothing wrong with what was read up to there. So the columns of a problem,
moved back by what the expansion has added, are those of the same text in the stored line.

## Main definitions

* `Range.unedited`: a range with the columns moved back over an edit
* `Outcome.IsBehind`: steps of a cursor after which everything is behind a column
* `Document.Locates`: problems that are found in the lines of a document

## Main results

* `Classifier.start_le_of_edit`: the problems of a line are behind its edits
* `Classifier.checkFiles_readOnly`: a check without fixes lints the files as they are stored
* `Context.check_located`: the problems a check without fixes reports, and the stored lines
-/

namespace ItemFilter

open Text HexColor Classifier
open Cursor hiding read

/-! ## Columns behind an edit -/

/-- The range on the line before an edit in front of it was made. -/
def Range.unedited (range : Range) (edit : TextEdit Range) : Range :=
  ⟨range.line, range.start + byteLength edit.oldText - byteLength edit.newText,
    range.stop + byteLength edit.oldText - byteLength edit.newText⟩

/-- A text that starts behind the front of a line covers the same characters whatever the front
is. -/
theorem Range.Covers.unedited {range : Range} {n : Nat} {edit : TextEdit Range}
    {before after inside : Text} (h : range.Covers n (before ++ edit.newText ++ after) inside)
    (hbehind : byteLength (before ++ edit.newText) ≤ range.start) :
    (range.unedited edit).Covers n (before ++ edit.oldText ++ after) inside := by
  obtain ⟨first, last, hne, hsplit, rfl⟩ := h.exists_append
  -- The text starts behind the new one, with some of the line in between.
  obtain ⟨middle, rfl, rfl⟩ := exists_append_of_le hsplit hbehind
  have hcovers := covers_on n (before ++ edit.oldText ++ middle) last hne
  have hrange : (Range.on n (spanOf (before ++ edit.newText ++ middle) inside)).unedited edit =
      Range.on n (spanOf (before ++ edit.oldText ++ middle) inside) := by
    simp only [Range.unedited, Range.on, spanOf, byteLength_append, Range.mk.injEq, true_and]
    omega
  rw [hrange]
  simpa using hcovers

/-! ## Problems behind the channels of a colour -/

/-- Tokens stand behind the text in front of them. -/
theorem Segment.le_start_of_mem_tokens {α : Type} {ps : List (Segment α)} {before : Text}
    {token : Token α} (h : token ∈ tokens before ps) : byteLength before ≤ token.range.start := by
  induction ps generalizing before with
  | nil => cases h
  | cons p ps ih =>
    rcases List.mem_cons.mp h with rfl | h
    · simp [Segment.token]
    · have hle := ih h
      rw [byteLength_append] at hle
      omega

/-- Reading a token does not go back. -/
theorem Cursor.offset_le_read {α : Type} (m : Matcher α) (cursor : Cursor) :
    cursor.offset ≤ (Cursor.read m cursor).2.offset := by
  rcases read_cases m cursor with h | ⟨token, next, hscan, h⟩
  · rw [h]
  · obtain ⟨n, -, -, -, -, -, rfl⟩ := scan?_eq_some_iff.mp hscan
    rw [h]
    simp only [offset, byteLength_append]
    omega

/-- All problems are behind a column, and so is the cursor. -/
structure Outcome.IsBehind (column : Nat) (result : Outcome × Cursor) : Prop where
  /-- The problems start at the column or behind it. -/
  diagnostics : ∀ d ∈ result.1.diagnostics, column ≤ d.range.start
  /-- The cursor stands at the column or behind it. -/
  offset : column ≤ result.2.offset

theorem Outcome.IsBehind.captureComment {column : Nat} {outcome : Outcome} {cursor : Cursor}
    (h : IsBehind column (outcome, cursor)) :
    IsBehind column (Outcome.captureComment outcome cursor) := by
  have hle := h.offset.trans (cursor.offset_le_read matchComment)
  unfold Outcome.captureComment Cursor.comment
  split
  · next hread =>
    rw [hread] at hle
    exact ⟨h.diagnostics, hle⟩
  · next hread =>
    rw [hread] at hle
    exact ⟨h.diagnostics, hle⟩

namespace Rule

/-- What is left over is behind the arguments. -/
theorem isBehind_read {catalog : Catalog} {keyword : Keyword} {rule : ArgumentRule}
    {cursor : Cursor} {column : Nat}
    (h : Outcome.IsBehind column (arguments catalog keyword rule cursor)) :
    Outcome.IsBehind column (read catalog keyword rule cursor) := by
  rw [read_eq]
  split
  · exact h
  · refine ⟨fun d hd => ?_, h.offset⟩
    rcases List.mem_append.mp hd with hd | hd
    · exact h.diagnostics d hd
    · obtain rfl := List.mem_singleton.mp hd
      exact h.offset

/-- The channels of an expanded colour are valid. -/
theorem contains_of_mem_tokens {before gap : Text} {channels : List Nat}
    (hbound : ∀ n ∈ channels, n < 256) {token : Token Int}
    (h : token ∈ Segment.tokens before (channelSegments gap channels)) :
    channelBounds.contains token.value = true := by
  have hvalue : token.value ∈ (channelSegments gap channels).map Segment.value := by
    rw [← Segment.map_value_tokens before]
    exact List.mem_map_of_mem h
  obtain ⟨p, hp, hpvalue⟩ := List.mem_map.mp hvalue
  obtain ⟨n, hn, hnvalue⟩ := value_of_mem_channelSegments hp
  have hlt := hbound n hn
  rw [← hpvalue, hnvalue, Bounds.contains_iff]
  simp only [channelBounds]
  omega

/-- The channels of an expanded colour are read and valid, so that all problems are behind them. -/
theorem isBehind_colorFrom (keyword : Keyword) (operator : Option (Token Operator))
    (start : Cursor) {gap after : Text} {channels : List Nat} (hgap : allBlank gap = true)
    (hne : gap ≠ []) (hthree : 3 ≤ channels.length) (hfour : channels.length ≤ 4)
    (hbound : ∀ n ∈ channels, n < 256) (hb : atBoundary after = true)
    (hrest : start.rest = gap ++ (decimalText channels ++ after)) :
    Outcome.IsBehind (byteLength (start.consumed ++ gap ++ decimalText channels))
      (colorFrom keyword operator [] start) := by
  have hchannels : channels ≠ [] := List.ne_nil_of_length_pos (by omega)
  have htexts := texts_channelSegments gap hchannels
  obtain ⟨qs, tail, -, -, -, -, hnumbers⟩ := exists_segments_behind
    (channelSegments_isOf hgap hne hbound) hb (by simpa using hfour) start
    (by rw [htexts, List.append_assoc, hrest])
  rw [Segment.tokens_append, htexts] at hnumbers
  have hcount : ¬ (start.numbers 4).1.length < 3 := by
    rw [hnumbers]
    simp only [List.length_append, Segment.length_tokens, length_channelSegments]
    omega
  rw [colorFrom, if_neg hcount, checkNumbers_eq]
  apply Outcome.IsBehind.captureComment
  refine ⟨fun d hd => ?_, ?_⟩
  · -- A number that is out of its bounds is none of the channels.
    split at hd
    · cases hd
    · obtain ⟨⟨token, bounds⟩, hmem, rfl⟩ := List.mem_map.mp hd
      obtain ⟨hmem, hbad⟩ := List.mem_filter.mp hmem
      obtain ⟨_, htoken, heq⟩ := List.mem_map.mp hmem
      obtain ⟨rfl, rfl⟩ := Prod.mk.inj heq
      rw [hnumbers] at htoken
      rcases List.mem_append.mp htoken with htoken | htoken
      · simp [contains_of_mem_tokens hbound htoken] at hbad
      · have hle := Segment.le_start_of_mem_tokens htoken
        rw [← List.append_assoc] at hle
        exact hle
  · rw [hnumbers]
    simp only [Segment.texts_append, htexts, offset, pass_consumed, byteLength_append]
    omega

/-- A colour expands to three or four channels. -/
theorem HexLine.length_channels {rest : Text} {op : Option (Segment Operator)} {p : Segment Text}
    {after : Text} (h : HexLine rest op p after) {channels : List Nat}
    (hlength : p.lexeme.length = 2 * channels.length + 1) :
    3 ≤ channels.length ∧ channels.length ≤ 4 := by
  obtain ⟨digits, hlexeme, -, hcount, -⟩ := h.hex.spelled
  rw [hlexeme, List.length_cons] at hlength
  omega

/-- All problems of an expanded colour are behind its channels. -/
theorem HexLine.isBehind (keyword : Keyword) {cursor : Cursor} {op : Option (Segment Operator)}
    {p : Segment Text} {after : Text} (h : HexLine cursor.rest op p after) :
    ∀ edit ∈ (color keyword cursor).1.edits,
      Outcome.IsBehind (edit.range.start + byteLength edit.newText) (color keyword cursor) := by
  obtain ⟨hedits, hcolor⟩ := h.color_eq keyword cursor
  obtain ⟨hlength, hbound, -⟩ := channelsOf_of_spelled h.hex.spelled
  obtain ⟨hthree, hfour⟩ := h.length_channels hlength
  -- The run from the start of the edited line finds the same problems.
  rw [color_expanded _ h.operator h.equality h.hex.blank h.hex.gap_ne_nil
    (channelsOf_ne_nil h.hex.spelled) hbound keyword] at hcolor
  have hbehind := isBehind_colorFrom keyword (op.map (Segment.token cursor.consumed))
    ⟨cursor.consumed ++ Segment.texts op.toList,
      p.gap ++ (decimalText (channelsOf p.lexeme) ++ after),
      ⟨cursor.content.start, cursor.content.stop +
        byteLength (decimalText (channelsOf p.lexeme)) - byteLength p.lexeme⟩⟩
    h.hex.blank h.hex.gap_ne_nil hthree hfour hbound h.boundary rfl
  rw [hcolor, byteLength_append] at hbehind
  rw [hedits]
  exact List.forall_mem_singleton.mpr ⟨hbehind.diagnostics, hbehind.offset⟩

end Rule

namespace Classifier

variable (c : Classifier)

/-- The problems of a line are behind its edits. -/
theorem start_le_of_edit (line : Text) :
    ∀ edit ∈ (c.classify (atStart line)).edits, ∀ d ∈ (c.classify (atStart line)).diagnostics,
      edit.range.start + byteLength edit.newText ≤ d.range.start := by
  by_cases hedits : (c.classify (atStart line)).edits = []
  · rw [hedits]
    nofun
  · obtain ⟨gap, keyword, rest, category, op, p, after, hgap, hb, rfl, hkind, h⟩ :=
      c.exists_hexLine_of_classify hedits
    rw [c.classify_rule hkind rfl hgap hb, ruleLine_eq]
    intro edit hedit
    rw [Rule.edits_read] at hedit
    exact (Rule.isBehind_read (h.isBehind keyword edit hedit)).diagnostics

end Classifier

namespace Document

/-- An edit that was made has replaced its old text by its new one. -/
theorem exists_append_of_editLine {line edited : Text} {edit : TextEdit Range}
    (h : editLine line [edit] = (.ok (), edited)) :
    ∃ before after, byteLength before = edit.range.start ∧
      line = before ++ edit.oldText ++ after ∧ edited = before ++ edit.newText ++ after := by
  rw [editLine, slice?, replace?] at h
  rcases hcut : cut? edit.range.start edit.range.stop line with _ | ⟨before, inside, after⟩
  · rw [hcut] at h
    cases h
  · rw [hcut] at h
    obtain ⟨hline, hstart, -⟩ := cut?_eq_some_iff.mp hcut
    dsimp only [Option.map_some] at h
    split at h
    · next hold =>
      obtain rfl : before ++ edit.newText ++ after = edited := congrArg Prod.snd h
      exact ⟨before, after, hstart, by rw [hline, ← hold, List.append_assoc], rfl⟩
    · cases h

/-- Where a problem of a linted line is, in the linted line and in the line as it was. -/
theorem LintsTo.exists_covers {c : Classifier} {location : Location} {line linted : Text}
    {result : LineResult Range} (h : LintsTo c location line result linted) :
    ∀ d ∈ result.diagnostics, ∃ inside, d.range.Covers location.line linted inside ∧
      (result.edits.foldl Range.unedited d.range).Covers location.line line inside ∧
      ∀ fix ∈ d.fix, fix.edit.range = d.range ∧ fix.edit.oldText = inside := by
  have hline := unbroken_of_parse h.parse_eq
  have hparse := h.parse_eq
  rw [c.parse_of_unbroken location hline] at hparse
  obtain rfl := Except.ok.inj hparse
  obtain ⟨edited, hedited⟩ := c.exists_edited hline
  have hlinted := h.editLine_eq
  obtain rfl : edited = linted :=
    congrArg Prod.snd ((hedited.editLine_eq location.line).symm.trans hlinted)
  intro d hd
  obtain ⟨d, hmem, rfl⟩ := List.mem_map.mp hd
  have hwithin := hedited.isWithin.diagnostics d hmem
  obtain ⟨inside, hcovers⟩ := Range.exists_covers location.line hwithin.1
  refine ⟨inside, hcovers, ?_, ?_⟩
  · -- Without an edit it is the same line; otherwise the problem is behind the only one.
    rcases hedits : (c.classify (atStart line)).edits with _ | ⟨edit, edits⟩
    · rw [LineResult.edits_place, hedits] at hlinted ⊢
      obtain rfl : line = edited := congrArg Prod.snd hlinted
      exact hcovers
    · obtain rfl : edits = [] := by
        have hone := hedited.length_le
        rw [hedits, List.length_cons] at hone
        exact List.length_eq_zero_iff.mp (by omega)
      have hbehind := c.start_le_of_edit line edit (by simp [hedits]) d hmem
      rw [LineResult.edits_place, hedits] at hlinted ⊢
      obtain ⟨before, after, hstart, rfl, rfl⟩ := exists_append_of_editLine hlinted
      refine hcovers.unedited ?_
      rw [byteLength_append, hstart]
      exact hbehind
  · intro fix hfix
    obtain ⟨fix, hfix', rfl⟩ := Option.map_eq_some_iff.mp hfix
    obtain ⟨hrange, hfound⟩ := hwithin.covers_fix hfix' location.line
    rw [hrange] at hfound
    have hfound := hfound.slice?_eq.symm.trans hcovers.slice?_eq
    exact ⟨congrArg (Range.on location.line) hrange, Option.some.inj hfound⟩

/-- The problems among results are on the lines of the document with their numbers. Each of them
covers some text of its line with the edits made, which its fix expects there, and the same text is
found in the line itself if the columns are moved back over the edits. -/
def Locates (document : Document) (c : Classifier) (file : Option String)
    (results : List (LineResult Range)) : Prop :=
  ∀ d ∈ results.flatMap LineResult.diagnostics, ∃ line result linted inside,
    document.lines[d.range.line]? = some line ∧ results[d.range.line]? = some result ∧
    d ∈ result.diagnostics ∧ LintsTo c ⟨file, d.range.line⟩ line result linted ∧
    d.range.Covers d.range.line linted inside ∧
    (result.edits.foldl Range.unedited d.range).Covers d.range.line line inside ∧
    ∀ fix ∈ d.fix, fix.edit.range = d.range ∧ fix.edit.oldText = inside

/-- The problems of a linted document are located in the document as it was. -/
theorem locates_of_lint {c : Classifier} {file : Option String} {document : Document}
    {results : List (LineResult Range)} (h : (document.lint c file).1 = .ok results) :
    document.Locates c file results := by
  obtain ⟨results', edited, hlint, hlength, -, hlines⟩ :=
    lint_of_unbroken c file document (unbroken_of_lint h)
  rw [hlint] at h
  obtain rfl := Except.ok.inj h
  intro d hd
  obtain ⟨result, hresult, hproblem⟩ := List.mem_flatMap.mp hd
  obtain ⟨i, hi⟩ := List.getElem?_of_mem hresult
  obtain ⟨hlt, -⟩ := List.getElem?_eq_some_iff.mp hi
  have hline : document.lines[i]? = some (document.lines[i]) :=
    List.getElem?_eq_getElem (hlength ▸ hlt)
  obtain ⟨found, linted, hfound, -, hlints⟩ := hlines i _ hline
  obtain rfl := Option.some.inj (hi.symm.trans hfound)
  obtain ⟨inside, hcovers, hstored, hfixes⟩ := hlints.exists_covers d hproblem
  -- The line of the problem is the one it was found on.
  obtain rfl : d.range.line = i := hcovers.line_eq
  exact ⟨_, result, linted, inside, hline, hi, hproblem, hlints, hcovers, hstored, hfixes⟩

end Document

/-! ## Checks without fixes -/

namespace Classifier

variable (c : Classifier)

/-- Without fixes, a file that is checked is linted as it is stored, and left alone. -/
theorem checkFile_readOnly (path : String) (storage : Storage) :
    (∃ e, c.checkFile false path storage = .error e ∧ e.code = "DOCUMENT_ERROR") ∨
      ∃ text results, storage.readText path = .ok text ∧
        ((Document.parse text.toList).lint c (some path)).1 = .ok results ∧
        c.checkFile false path storage = .ok (⟨path, results, 0, false⟩, storage) := by
  rcases htext : storage.readText path with e | text
  · refine Or.inl ⟨.unreadable path e, ?_, rfl⟩
    rw [checkFile, htext]
  · rcases hlint : (Document.parse text.toList).lint c (some path) with ⟨e | results, linted⟩
    · refine Or.inl ⟨.document e, ?_, rfl⟩
      rw [checkFile, htext]
      simp [checkDocument, hlint, Except.map]
    · refine Or.inr ⟨text, results, rfl, by rw [hlint], ?_⟩
      rw [checkFile, htext]
      simp [checkDocument, hlint, Except.map]

/-- Without fixes, all files are linted as they are stored, and left alone. -/
theorem checkFiles_readOnly (paths : List String) (storage : Storage) :
    (∃ e, c.checkFiles false paths storage = (.error e, storage) ∧ e.code = "DOCUMENT_ERROR") ∨
      ∃ files, c.checkFiles false paths storage = (.ok files, storage) ∧
        files.map CheckedFile.path = paths ∧
        ∀ file ∈ files, ∃ text, storage.readText file.path = .ok text ∧
          ((Document.parse text.toList).lint c (some file.path)).1 = .ok file.results := by
  -- Induction on the paths, the storage staying the same.
  induction paths with
  | nil => exact Or.inr ⟨[], rfl, rfl, nofun⟩
  | cons path paths ih =>
    rcases c.checkFile_readOnly path storage with
      ⟨e, hfile, hcode⟩ | ⟨text, results, htext, hlint, hfile⟩
    · refine Or.inl ⟨e, ?_, hcode⟩
      rw [checkFiles, hfile]
    · rcases ih with ⟨e, hrest, hcode⟩ | ⟨files, hrest, hpaths, hfiles⟩
      · refine Or.inl ⟨e, ?_, hcode⟩
        rw [checkFiles, hfile]
        dsimp only
        rw [hrest]
        rfl
      · refine Or.inr ⟨⟨path, results, 0, false⟩ :: files, ?_, ?_, ?_⟩
        · rw [checkFiles, hfile]
          dsimp only
          rw [hrest]
          rfl
        · rw [List.map_cons, hpaths]
        · exact List.forall_mem_cons.mpr ⟨⟨text, htext, hlint⟩, hfiles⟩

end Classifier

namespace Context

variable (context : Context) (options : CheckOptions)

/-- A check that is not stopped prints what was found in the files. -/
theorem check_of_files {c : Classifier}
    (hclassifier : context.config.classifier context.storage options.catalog options.noWarnings =
      .ok c) {files : List CheckedFile} {storage : Storage}
    (hfiles : c.checkFiles options.fix options.files context.storage = (.ok files, storage)) :
    context.check options =
      { output :=
          if context.flags.json then printed (checkJson files)
          else listingText context.flags context.colors files
        failure :=
          if (totalReport files).hasErrors then some (.errorsFound (totalReport files).errors)
          else none
        storage } := by
  rw [check, hclassifier]
  dsimp only
  rw [hfiles]

/-- A catalog that cannot be loaded is told as such. -/
theorem code_of_classifier {e : CommandError}
    (h : context.config.classifier context.storage options.catalog options.noWarnings =
      .error e) : e.code = "CATALOG_ERROR" := by
  have hload : ∀ path e, Catalog.load context.storage path = .error e →
      e.code = "CATALOG_ERROR" := by
    intro path e h
    unfold Catalog.load at h
    split at h
    · cases h
      rfl
    · split at h
      · cases h
      · cases h
        rfl
  unfold Config.classifier Config.loadCatalog at h
  cases hpath : options.catalog.or context.config.catalog with
  | none =>
    rw [hpath] at h
    cases h
  | some path =>
    rw [hpath] at h
    dsimp only at h
    rcases hcatalog : Catalog.load context.storage path with cause | catalog
    · rw [hcatalog] at h
      obtain rfl := Except.error.inj h
      exact hload path cause hcatalog
    · rw [hcatalog] at h
      cases h

/-- A check without fixes that is not stopped leaves everything as it is, and the problems it
reports are located in the files as they are stored. -/
theorem check_located (hfix : options.fix = false)
    (hrun : ∀ e ∈ (context.check options).failure, e.code = "LINT_FAILED") :
    (context.check options).storage = context.storage ∧
    ∃ c files,
      context.config.classifier context.storage options.catalog options.noWarnings = .ok c ∧
      c.checkFiles false options.files context.storage = (.ok files, context.storage) ∧
      (context.check options).output =
        (if context.flags.json then printed (checkJson files)
          else listingText context.flags context.colors files) ∧
      ∀ file ∈ files, ∃ text, context.storage.readText file.path = .ok text ∧
        (Document.parse text.toList).Locates c (some file.path) file.results := by
  cases hclassifier :
      context.config.classifier context.storage options.catalog options.noWarnings with
  | error e =>
    -- The check would fail with another code.
    have hcode := hrun e (by rw [check, hclassifier]; rfl)
    rw [context.code_of_classifier options hclassifier] at hcode
    exact absurd hcode (by decide)
  | ok c =>
    rcases c.checkFiles_readOnly options.files context.storage with
      ⟨e, hfiles, hdocument⟩ | ⟨files, hfiles, -, hlint⟩
    · have hfailure : e ∈ (context.check options).failure := by
        rw [check, hclassifier, hfix]
        dsimp only
        rw [hfiles]
        rfl
      have hcode := hrun e hfailure
      rw [hdocument] at hcode
      exact absurd hcode (by decide)
    · rw [context.check_of_files options hclassifier (hfix ▸ hfiles)]
      refine ⟨rfl, c, files, rfl, hfiles, rfl, fun file hfile => ?_⟩
      obtain ⟨text, htext, hresults⟩ := hlint file hfile
      exact ⟨text, htext, Document.locates_of_lint hresults⟩

/-- A command in a directory with one filter, in which text is left over behind a colour. -/
def hexLeftover : Context :=
  { flags := {}
    colors := false
    environment := {}
    config := {}
    storage := { entries := [(["a.filter"], .file "SetTextColor #FFFFFF x\n".toUTF8)] } }

set_option maxRecDepth 10000 in
theorem failure_hexLeftover : (hexLeftover.check { files := ["a.filter"] }).failure =
    some (.errorsFound 1) := by decide +kernel

theorem readText_hexLeftover : hexLeftover.storage.readText "a.filter" =
    .ok "SetTextColor #FFFFFF x\n" := by decide

set_option maxRecDepth 10000 in
theorem ranges_hexLeftover :
    (Classifier.checkFiles ⟨Config.extend {} .builtin, true⟩ false ["a.filter"]
        hexLeftover.storage).1.toOption.map
          (fun files => files.map fun file => (file.path, file.diagnostics.map fun d => d.range)) =
      some [("a.filter", [⟨0, 24, 26⟩])] := by decide +kernel

/-- The leftover text is located in the file, by its columns behind the expanded colour. -/
theorem check_located_leftover :
    (hexLeftover.check { files := ["a.filter"] }).failure = some (.errorsFound 1) ∧
    (hexLeftover.check { files := ["a.filter"] }).storage = hexLeftover.storage ∧
    ∃ c files, hexLeftover.config.classifier hexLeftover.storage none false = .ok c ∧
      c.checkFiles false ["a.filter"] hexLeftover.storage = (.ok files, hexLeftover.storage) ∧
      (hexLeftover.check { files := ["a.filter"] }).output = listingText {} false files ∧
      ∀ file ∈ files, ∃ text, hexLeftover.storage.readText file.path = .ok text ∧
        (Document.parse text.toList).Locates c (some file.path) file.results :=
  ⟨failure_hexLeftover, check_located hexLeftover { files := ["a.filter"] } rfl
    (by simp [failure_hexLeftover, CommandError.code])⟩

/-- The columns of a problem need not be columns of the stored line: the text that is left over
behind the colour ends two columns behind the end of the line. -/
theorem exists_unlocated :
    ¬ ∀ (context : Context) (options : CheckOptions), options.fix = false →
      (∀ e ∈ (context.check options).failure, e.code = "LINT_FAILED") →
      ∀ c files storage,
        context.config.classifier context.storage options.catalog options.noWarnings = .ok c →
        c.checkFiles false options.files context.storage = (.ok files, storage) →
        ∀ file ∈ files, ∀ text, context.storage.readText file.path = .ok text →
          ∀ d ∈ file.diagnostics, ∃ line inside,
            (Document.parse text.toList).lines[d.range.line]? = some line ∧
            slice? d.range.start d.range.stop line = some inside ∧
            ∀ fix ∈ d.fix,
              slice? fix.edit.range.start fix.edit.range.stop line = some fix.edit.oldText := by
  intro h
  have hranges := ranges_hexLeftover
  rcases hfiles : Classifier.checkFiles ⟨Config.extend {} .builtin, true⟩ false ["a.filter"]
      hexLeftover.storage with ⟨e | files, storage⟩
  · rw [hfiles] at hranges
    cases hranges
  · rw [hfiles] at hranges
    obtain ⟨file, rfl, hfile⟩ := List.map_eq_singleton_iff.mp (Option.some.inj hranges)
    obtain ⟨hpath, hdiagnostics⟩ := Prod.mk.inj hfile
    obtain ⟨d, hd, hrange⟩ := List.map_eq_singleton_iff.mp hdiagnostics
    have htext : hexLeftover.storage.readText file.path = .ok "SetTextColor #FFFFFF x\n" := by
      rw [hpath, readText_hexLeftover]
    obtain ⟨line, inside, hline, hslice, -⟩ := h hexLeftover { files := ["a.filter"] } rfl
      (by simp [failure_hexLeftover, CommandError.code]) _ _ storage rfl hfiles file
      (List.mem_singleton_self _) _ htext d (hd ▸ List.mem_singleton_self _)
    -- The stored line has 22 columns, and the problem covers the two from 24 on.
    rw [hrange] at hline hslice
    obtain rfl : "SetTextColor #FFFFFF x".toList = line := Option.some.inj hline
    have hnone : slice? 24 26 "SetTextColor #FFFFFF x".toList = none := by decide
    exact absurd (hnone.symm.trans hslice) (by simp)

end Context

end ItemFilter
