import ItemFilter.Command.Check.Listing
import ItemFilter.Proofs.Columns
import ItemFilter.Proofs.Wording

/-!
# Colours on a terminal

A terminal reads control sequences out of the text that is sent to it, and shows every other
character in the styles that are switched on by then. Styled pieces are shown as their text, in
their styles, and leave no style switched on. So a coloured listing is shown with the characters of
the plain one, and a line feed in a style can only come from the path of a file, which is the one
text in a listing that is not worded by the program.

## Main definitions

* `Terminal.step`, `Terminal.run`: a terminal that reads a text
* `Terminal.cells`, `Terminal.strip`: what a text is shown as, with its styles and without
* `Piece.cells`: what a styled piece is shown as
* `Terminal.IsInPath`: a cell that stands in the path of a location, which is bold as a whole

## Main results

* `Terminal.run_wrap`: a text with styles around it
* `Terminal.cells_linesText`: coloured lines are shown piece by piece
* `linesText_colored`: a coloured listing and the plain one
-/

namespace ItemFilter

open Text

/-- Whether a style is a colour. -/
def Style.isColor : Style → Bool
  | bold | dimmed => false
  | red | green | yellow => true

namespace Terminal

/-! ## A terminal -/

/-- The character that control sequences start with. -/
def escape : Char :=
  '\x1b'

/-- How far a control sequence has been read. -/
inductive Reading where
  /-- There is none. -/
  | text
  /-- Its first character. -/
  | escape
  /-- Its bracket, and the digits of a number, kept in reverse. -/
  | number (digits : Text)
  deriving DecidableEq, Repr

/-- The characters that were read of what may still turn out to be a control sequence. -/
def Reading.held : Reading → Text
  | text => []
  | escape => [Terminal.escape]
  | number digits => Terminal.escape :: '[' :: digits.reverse

/-- A character as it is shown. -/
structure Cell where
  /-- The character. -/
  char : Char
  /-- The styles it is shown in. -/
  styles : List Style
  deriving DecidableEq, Repr

/-- What is kept of the text so far: the styles that are switched on, the last one first, and how
far a control sequence has been read. -/
structure State where
  /-- The styles that are switched on. -/
  styles : List Style := []
  /-- How far a control sequence has been read. -/
  reading : Reading := .text
  deriving DecidableEq, Repr

/-- The styles after one more is switched on. There is one colour at a time. -/
def switchOn (style : Style) (styles : List Style) : List Style :=
  style :: if style.isColor then styles.filter fun s => !s.isColor else styles

/-- The styles after a control sequence with a number. -/
def select (styles : List Style) : Text → List Style
  | ['0'] => []
  | ['1'] => switchOn .bold styles
  | ['2'] => switchOn .dimmed styles
  | ['3', '1'] => switchOn .red styles
  | ['3', '2'] => switchOn .green styles
  | ['3', '3'] => switchOn .yellow styles
  | ['3', '9'] => styles.filter fun s => !s.isColor
  | _ => styles

/-- Characters shown in the styles that are switched on. -/
def State.shown (state : State) (text : Text) : List Cell :=
  text.map fun c => ⟨c, state.styles⟩

/-- Reads a character. What turns out to be no control sequence is shown. -/
def step (state : State) (c : Char) : List Cell × State :=
  if c = escape then (state.shown state.reading.held, { state with reading := .escape })
  else
    match state.reading with
    | .text => (state.shown [c], state)
    | .escape =>
      if c = '[' then ([], { state with reading := .number [] })
      else (state.shown [escape, c], { state with reading := .text })
    | .number digits =>
      if c = 'm' then ([], ⟨select state.styles digits.reverse, .text⟩)
      else if c.isDigit then ([], { state with reading := .number (c :: digits) })
      else (state.shown ((Reading.number digits).held ++ [c]), { state with reading := .text })

/-- Reads a text. -/
def run (state : State) : Text → List Cell × State
  | [] => ([], state)
  | c :: text =>
    ((step state c).1 ++ (run (step state c).2 text).1, (run (step state c).2 text).2)

/-- What a text is shown as. -/
def cells (text : Text) : List Cell :=
  (run {} text).1 ++ (run {} text).2.shown (run {} text).2.reading.held

/-- A text without its control sequences. -/
def strip (text : Text) : Text :=
  (cells text).map Cell.char

/-! ## Texts and styles -/

theorem run_append (state : State) (front back : Text) :
    run state (front ++ back) =
      ((run state front).1 ++ (run (run state front).2 back).1,
        (run (run state front).2 back).2) := by
  induction front generalizing state with
  | nil => rfl
  | cons c front ih =>
    rw [List.cons_append, run, run, ih, List.append_assoc]

/-- A text without escape characters is shown as it is. -/
theorem run_of_notMem {text : Text} (h : escape ∉ text) (styles : List Style) :
    run ⟨styles, .text⟩ text = (text.map fun c => ⟨c, styles⟩, ⟨styles, .text⟩) := by
  induction text with
  | nil => rfl
  | cons c text ih =>
    rw [List.mem_cons, not_or] at h
    have hstep : step ⟨styles, .text⟩ c = ([⟨c, styles⟩], ⟨styles, .text⟩) :=
      if_neg fun heq => h.1 heq.symm
    rw [run, hstep, ih h.2]
    rfl

/-- The styles after the end of a style. -/
def switchOff (style : Style) (styles : List Style) : List Style :=
  if style.isColor then styles.filter fun s => !s.isColor else []

theorem run_opening (style : Style) (styles : List Style) :
    run ⟨styles, .text⟩ style.opening.toList = ([], ⟨switchOn style styles, .text⟩) := by
  cases style <;> rfl

theorem run_closing (style : Style) (styles : List Style) :
    run ⟨styles, .text⟩ style.closing.toList = ([], ⟨switchOff style styles, .text⟩) := by
  cases style <;> rfl

theorem switchOff_subset {style : Style} {inner styles : List Style}
    (h : inner ⊆ switchOn style styles) : switchOff style inner ⊆ styles := by
  unfold switchOff switchOn at *
  cases hcolor : style.isColor with
  | false => exact List.nil_subset styles
  | true =>
    rw [hcolor, if_pos rfl] at h
    intro s hs
    obtain ⟨hinner, hs⟩ := List.mem_filter.mp hs
    rcases List.mem_cons.mp (h hinner) with rfl | hmem
    · rw [hcolor] at hs
      cases hs
    · exact (List.mem_filter.mp hmem).1

/-- The styles that a text is shown in, with styles around it that are switched on one after
another. -/
def around (styles : List Style) (more : List Style) : List Style :=
  more.foldl (fun styles style => switchOn style styles) styles

/-- A text is shown in the styles around it, and no style stays switched on that was not before. -/
theorem run_wrap {text : String} (h : escape ∉ text.toList) (more styles : List Style) :
    ∃ last ⊆ styles, run ⟨styles, .text⟩ (Piece.wrap text more).toList =
      (text.toList.map fun c => ⟨c, around styles more⟩, ⟨last, .text⟩) := by
  -- Induction on the styles, the outermost one being switched on first and off last.
  induction more generalizing styles with
  | nil => exact ⟨styles, List.Subset.refl _, run_of_notMem h styles⟩
  | cons style more ih =>
    obtain ⟨inner, hinner, hrun⟩ := ih (switchOn style styles)
    refine ⟨switchOff style inner, switchOff_subset hinner, ?_⟩
    rw [Piece.wrap, String.toList_append, String.toList_append, run_append, run_append, run_opening]
    dsimp only
    rw [hrun, run_closing, List.nil_append, List.append_nil]
    rfl

end Terminal

/-! ## Pieces and lines -/

/-- What a styled piece is shown as. -/
def Piece.cells (piece : Piece) : List Terminal.Cell :=
  piece.text.toList.map fun c => ⟨c, Terminal.around [] piece.styles⟩

namespace Terminal

/-- What a line of pieces is shown as. -/
def lineCells (pieces : List Piece) : List Cell :=
  pieces.flatMap Piece.cells ++ [⟨'\n', []⟩]

theorem run_shown {piece : Piece} (h : escape ∉ piece.text.toList) :
    run {} (piece.shown true).toList = (piece.cells, {}) := by
  obtain ⟨last, hlast, hrun⟩ := run_wrap h piece.styles []
  obtain rfl := List.subset_nil.mp hlast
  exact hrun

/-- Texts that leave no styles switched on are shown one after another. -/
theorem run_flatMap {α : Type} {f : α → Text} {g : α → List Cell} {xs : List α}
    (h : ∀ x ∈ xs, run {} (f x) = (g x, {})) : run {} (xs.flatMap f) = (xs.flatMap g, {}) := by
  induction xs with
  | nil => rfl
  | cons x xs ih =>
    rw [List.forall_mem_cons] at h
    rw [List.flatMap_cons, run_append, h.1, ih h.2, List.flatMap_cons]

/-- The pieces of a line are shown one after another, with no style left switched on. -/
theorem run_showPieces {pieces : List Piece} (h : ∀ piece ∈ pieces, escape ∉ piece.text.toList) :
    run {} (showPieces true pieces).toList = (pieces.flatMap Piece.cells, {}) := by
  rw [showPieces, String.toList_join, List.flatMap_map]
  exact run_flatMap fun piece hpiece => run_shown (h piece hpiece)

/-- Coloured lines are shown piece by piece. -/
theorem cells_linesText {lines : List (List Piece)}
    (h : ∀ pieces ∈ lines, ∀ piece ∈ pieces, escape ∉ piece.text.toList) :
    cells (linesText true lines).toList = lines.flatMap lineCells := by
  have hrun : run {} (linesText true lines).toList = (lines.flatMap lineCells, {}) := by
    rw [linesText, String.toList_join, List.flatMap_map]
    refine run_flatMap fun pieces hpieces => ?_
    rw [String.toList_append, run_append, run_showPieces (h pieces hpieces)]
    rfl
  rw [cells, hrun]
  exact List.append_nil _

/-- The characters that are shown are those of the plain lines. -/
theorem map_char_lineCells (lines : List (List Piece)) :
    (lines.flatMap lineCells).map Cell.char = (linesText false lines).toList := by
  have hpiece : ∀ piece : Piece, piece.cells.map Cell.char = (piece.shown false).toList := by
    intro piece
    rw [Piece.cells, List.map_map]
    exact List.map_id _
  rw [linesText, String.toList_join, List.flatMap_map, List.map_flatMap]
  refine congrArg (fun f => lines.flatMap f) (funext fun pieces => ?_)
  rw [lineCells, List.map_append, List.map_flatMap, String.toList_append, showPieces,
    String.toList_join, List.flatMap_map]
  simp only [hpiece]
  rfl

/-- Lines as one row of pieces, each line being ended by a line feed without styles. -/
def endedPieces (lines : List (List Piece)) : List Piece :=
  lines.flatMap fun pieces => pieces ++ [⟨"\n", []⟩]

/-- What is shown is the row of pieces. -/
theorem flatMap_lineCells (lines : List (List Piece)) :
    lines.flatMap lineCells = (endedPieces lines).flatMap Piece.cells := by
  rw [endedPieces, List.flatMap_assoc]
  refine congrArg (fun f => lines.flatMap f) (funext fun pieces => ?_)
  rw [List.flatMap_append]
  rfl

/-- A character in a row of pieces belongs to one of them: it is shown in the styles of the piece,
and so are the characters of the piece around it. -/
theorem exists_of_cells_eq {pieces : List Piece} {cell : Cell} {front back : List Cell}
    (h : pieces.flatMap Piece.cells = front ++ cell :: back) :
    ∃ piece ∈ pieces, ∃ before after, piece.text.toList = before ++ cell.char :: after ∧
      cell.styles = around [] piece.styles ∧
      before.map (fun c => ⟨c, around [] piece.styles⟩) <:+ front ∧
      after.map (fun c => ⟨c, around [] piece.styles⟩) <+: back := by
  -- Induction on the pieces: the character belongs to the first one, or stands behind it.
  induction pieces generalizing front with
  | nil => simp at h
  | cons piece pieces ih =>
    rw [List.flatMap_cons] at h
    rcases split_append h with ⟨rest, hpiece, rfl⟩ | ⟨rest, rfl, hrest⟩
    · obtain ⟨before, inside, htext, rfl, hinside⟩ := List.map_eq_append_iff.mp hpiece
      obtain ⟨c, after, rfl, rfl, rfl⟩ := List.map_eq_cons_iff.mp hinside
      exact ⟨piece, List.mem_cons_self, before, after, htext, rfl, List.suffix_rfl,
        List.prefix_append ..⟩
    · obtain ⟨other, hother, before, after, htext, hstyles, hbefore, hafter⟩ := ih hrest
      exact ⟨other, List.mem_cons_of_mem _ hother, before, after, htext, hstyles,
        hbefore.trans (List.suffix_append ..), hafter⟩

end Terminal

/-! ## Listings -/

open Terminal (escape)

/-- A piece of a listing of files: it has no escape characters, and if there is a line feed in a
style, it is a place in a file. -/
structure Piece.IsListed (files : List CheckedFile) (piece : Piece) : Prop where
  /-- There are no escape characters. -/
  escape_notMem : escape ∉ piece.text.toList
  /-- A piece with a line feed has no styles, or is a place in a file, in bold. -/
  styles_eq : '\n' ∈ piece.text.toList →
    piece.styles = [] ∨ piece.styles = [.bold] ∧
      ∃ file ∈ files, ∃ range, piece.text = Diagnostic.location file.path range

section

variable {files : List CheckedFile}

theorem Piece.isListed_plain {text : String} (h : MadeOf isReadable text) :
    IsListed files ⟨text, []⟩ :=
  ⟨h.notMem (by decide), fun _ => Or.inl rfl⟩

theorem Piece.isListed_styled {text : String} (h : MadeOf isPrintable text)
    (styles : List Style) : IsListed files ⟨text, styles⟩ :=
  ⟨h.readable.notMem (by decide), fun hmem => absurd hmem (h.notMem (by decide))⟩

theorem Severity.printable_name (severity : Severity) : MadeOf isPrintable severity.name := by
  cases severity <;> exact madeOf_literal (by decide)

/-- A place in a file is its path and numbers. -/
theorem Diagnostic.exists_location (path : String) (range : Range) :
    ∃ numbers, location path range = path ++ numbers ∧ MadeOf isPrintable numbers := by
  refine ⟨":" ++ (range.line + 1).repr ++ ":" ++ (range.start + 1).repr, ?_, ?_⟩
  · simp only [← String.append_assoc]
    rfl
  · exact madeOf_append.mpr ⟨madeOf_append.mpr ⟨madeOf_append.mpr
      ⟨madeOf_literal (by decide), madeOf_nat _⟩, madeOf_literal (by decide)⟩, madeOf_nat _⟩

/-- A place in a file is bold, whatever there is in the path. -/
theorem Piece.isListed_location {file : CheckedFile} (hfile : file ∈ files)
    (hpath : escape ∉ file.path.toList) (range : Range) :
    IsListed files ⟨Diagnostic.location file.path range, [.bold]⟩ := by
  obtain ⟨numbers, hlocation, hnumbers⟩ := Diagnostic.exists_location file.path range
  refine ⟨?_, fun _ => Or.inr ⟨rfl, file, hfile, range, rfl⟩⟩
  rw [hlocation, String.toList_append, List.mem_append, not_or]
  exact ⟨hpath, hnumbers.readable.notMem (by decide)⟩

/-- The line of a problem is listed. -/
theorem Diagnostic.isListed_line {d : Diagnostic Range} (h : d.IsWorded) {file : CheckedFile}
    (hfile : file ∈ files) (hpath : escape ∉ file.path.toList) :
    ∀ piece ∈ d.line file.path, piece.IsListed files := by
  refine List.forall_mem_append.mpr ⟨?_, ?_⟩
  · simp only [List.forall_mem_cons]
    exact ⟨Piece.isListed_location hfile hpath d.range,
      Piece.isListed_plain (madeOf_literal (by decide)),
      Piece.isListed_styled d.severity.printable_name _,
      Piece.isListed_plain (madeOf_append.mpr ⟨madeOf_literal (by decide), h.excerpt⟩),
      List.forall_mem_nil _⟩
  · split
    · next fix hfix =>
      rw [h.title fix hfix]
      simp only [List.forall_mem_cons]
      exact ⟨Piece.isListed_plain (madeOf_literal (by decide)),
        Piece.isListed_styled
          (madeOf_around (by decide) (madeOf_literal (by decide)) (by decide)) _,
        List.forall_mem_nil _⟩
    · exact List.forall_mem_nil _

/-- The lines of a text have the characters of the text. -/
theorem Text.mem_of_mem_linesAfter {front text line : Text} (h : line ∈ linesAfter front text)
    {c : Char} (hc : c ∈ line) : c ∈ front ∨ c ∈ text := by
  -- Induction on the text, with the characters of the line so far in front.
  induction text generalizing front with
  | nil =>
    rw [linesAfter] at h
    split at h
    · cases h
    · obtain rfl := List.mem_singleton.mp h
      exact Or.inl (List.mem_reverse.mp hc)
  | cons x text ih =>
    rw [linesAfter] at h
    split at h
    · rcases List.mem_cons.mp h with rfl | h
      · rw [List.mem_reverse] at hc
        unfold dropReturn at hc
        split at hc
        · exact Or.inl (List.mem_cons_of_mem _ hc)
        · exact Or.inl hc
      · exact Or.inr (List.mem_cons_of_mem _ ((ih h).resolve_left (by simp)))
    · rcases ih h with hfront | htext
      · rcases List.mem_cons.mp hfront with rfl | hfront
        · exact Or.inr (List.mem_cons_self ..)
        · exact Or.inl hfront
      · exact Or.inr (List.mem_cons_of_mem _ htext)

theorem Page.readable_address (page : Page) : MadeOf isReadable page.address := by
  cases page <;> exact madeOf_literal (by decide)

/-- The details of a problem are listed. -/
theorem Diagnostic.isListed_detailLines {d : Diagnostic Range} (h : d.IsWorded) :
    ∀ pieces ∈ d.detailLines, ∀ piece ∈ pieces, piece.IsListed files := by
  -- The description is set in line by line, with the address of a page below it.
  refine List.forall_mem_append.mpr ⟨?_, ?_⟩
  · split
    · next text htext =>
      intro pieces hpieces
      obtain ⟨line, hline, rfl⟩ := List.mem_map.mp hpieces
      have hreadable : MadeOf isReadable (String.ofList line) := by
        refine madeOf_literal (List.all_eq_true.mpr fun c hc => ?_)
        exact (h.description text htext).of_mem
          ((Text.mem_of_mem_linesAfter hline hc).resolve_left (by simp))
      refine List.forall_mem_singleton.mpr (Piece.isListed_plain ?_)
      unfold setIn
      split
      · exact madeOf_literal (by decide)
      · exact madeOf_append.mpr ⟨madeOf_literal (by decide), hreadable⟩
    · exact List.forall_mem_nil _
  · split
    · next page _ =>
      exact List.forall_mem_singleton.mpr (List.forall_mem_singleton.mpr (Piece.isListed_plain
        (madeOf_append.mpr ⟨madeOf_literal (by decide), page.readable_address⟩)))
    · exact List.forall_mem_nil _

theorem printable_counted {noun : Text} (hnoun : noun.all isPrintable = true) (n : Nat) :
    MadeOf isPrintable (counted n (String.ofList noun)) := by
  refine madeOf_append.mpr ⟨madeOf_append.mpr ⟨madeOf_append.mpr
    ⟨madeOf_nat n, madeOf_literal (by decide)⟩, madeOf_literal hnoun⟩, ?_⟩
  split
  · exact madeOf_literal (by decide)
  · exact madeOf_literal (by decide)

/-- A count between fixed words. -/
theorem printable_enumerated {front : String} (h : MadeOf isPrintable front) {words noun : Text}
    (hwords : words.all isPrintable = true) (hnoun : noun.all isPrintable = true) (n : Nat) :
    MadeOf isPrintable (front ++ String.ofList words ++ counted n (String.ofList noun)) :=
  madeOf_append.mpr ⟨madeOf_append.mpr ⟨h, madeOf_literal hwords⟩, printable_counted hnoun n⟩

theorem printable_summaryText (total : Report) (files : List CheckedFile) :
    MadeOf isPrintable (summaryText total files) := by
  have hchecked : MadeOf isPrintable ("Checked " ++ counted files.length "file") :=
    madeOf_append.mpr ⟨madeOf_literal (by decide), printable_counted (by decide) _⟩
  refine madeOf_append.mpr ⟨printable_enumerated
    (printable_enumerated hchecked (by decide) (by decide) _) (by decide) (by decide) _, ?_⟩
  split
  · exact madeOf_append.mpr ⟨madeOf_append.mpr
      ⟨madeOf_literal (by decide), printable_counted (by decide) _⟩, madeOf_literal (by decide)⟩
  · exact madeOf_literal (by decide)

/-- All pieces of a listing are listed. -/
theorem isListed_listingWith (flags : Flags) (total : Report)
    (hworded : ∀ file ∈ files, ∀ d ∈ file.diagnostics, d.IsWorded)
    (hpaths : ∀ file ∈ files, escape ∉ file.path.toList) :
    ∀ pieces ∈ listingWith flags total files, ∀ piece ∈ pieces, piece.IsListed files := by
  refine List.forall_mem_append.mpr ⟨?_, ?_⟩
  · intro pieces hpieces
    obtain ⟨file, hfile, hpieces⟩ := List.mem_flatMap.mp hpieces
    obtain ⟨d, hd, hpieces⟩ := List.mem_flatMap.mp hpieces
    have hd := hworded file hfile d (List.mem_filter.mp hd).1
    rcases List.mem_cons.mp hpieces with rfl | hpieces
    · exact d.isListed_line hd hfile (hpaths file hfile)
    · split at hpieces
      · exact d.isListed_detailLines hd pieces hpieces
      · cases hpieces
  · split
    · exact List.forall_mem_nil _
    · exact List.forall_mem_singleton.mpr (List.forall_mem_singleton.mpr
        (Piece.isListed_styled (printable_summaryText total files) _))

end

/-- The line feeds at the ends of the lines are listed, too. -/
theorem Terminal.isListed_endedPieces {files : List CheckedFile} {lines : List (List Piece)}
    (h : ∀ pieces ∈ lines, ∀ piece ∈ pieces, piece.IsListed files) :
    ∀ piece ∈ endedPieces lines, piece.IsListed files := by
  intro piece hpiece
  obtain ⟨pieces, hpieces, hpiece⟩ := List.mem_flatMap.mp hpiece
  rcases List.mem_append.mp hpiece with hpiece | hpiece
  · exact h pieces hpieces piece hpiece
  · obtain rfl := List.mem_singleton.mp hpiece
    exact Piece.isListed_plain (madeOf_literal (by decide))

/-- What is shown around a line feed that stands in the path of a file: the rest of the path, in
bold from its start to its end. -/
def Terminal.IsInPath (files : List CheckedFile) (front back : List Terminal.Cell) : Prop :=
  ∃ file ∈ files, ∃ before after, file.path.toList = before ++ '\n' :: after ∧
    before.map (fun c => ⟨c, [.bold]⟩) <:+ front ∧ after.map (fun c => ⟨c, [.bold]⟩) <+: back

/-- A line feed in a listing has no style, or stands in the path of a file. -/
theorem Terminal.styles_of_lf {files : List CheckedFile} {pieces : List Piece}
    (hlisted : ∀ piece ∈ pieces, piece.IsListed files) {front back : List Cell} {cell : Cell}
    (h : pieces.flatMap Piece.cells = front ++ cell :: back) (hlf : cell.char = '\n') :
    cell.styles = [] ∨ cell.styles = [.bold] ∧ IsInPath files front back := by
  obtain ⟨piece, hpiece, before, after, htext, hstyles, hbefore, hafter⟩ := exists_of_cells_eq h
  have hmem : '\n' ∈ piece.text.toList := by
    rw [htext, hlf]
    exact List.mem_append_right _ List.mem_cons_self
  rcases (hlisted piece hpiece).styles_eq hmem with hnone | ⟨hbold, file, hfile, range, hplace⟩
  · rw [hnone] at hstyles
    exact Or.inl hstyles
  · rw [hbold] at hstyles hbefore hafter
    refine Or.inr ⟨hstyles, file, hfile, before, ?_⟩
    -- The line feed is not one of the numbers behind the path.
    obtain ⟨numbers, hlocation, hnumbers⟩ := Diagnostic.exists_location file.path range
    have hnone : '\n' ∉ numbers.toList := hnumbers.notMem (by decide)
    rw [hplace, hlocation, String.toList_append, hlf] at htext
    rcases split_append htext with ⟨rest, hpath, rfl⟩ | ⟨rest, -, hrest⟩
    · have hrest : rest <+: rest ++ numbers.toList := List.prefix_append ..
      exact ⟨rest, hpath, hbefore, (hrest.map _).trans hafter⟩
    · rw [hrest] at hnone
      exact absurd (List.mem_append_right _ List.mem_cons_self) hnone

/-- Files whose results are those of lines. -/
def AreChecked (files : List CheckedFile) : Prop :=
  ∀ file ∈ files, ∀ result ∈ file.results, ∃ c location line,
    Classifier.parse c location line = .ok result

/-- Colours are decoration. Whatever the flags and the counts are, a coloured listing of checked
files without escape characters in their paths is the plain listing once its control sequences are
removed, and there are no escape characters in that. No style is left switched on at the end of a
line of the listing. A line feed is shown in a style only if it stands in the path of a file, which
is bold from its start to its end. -/
theorem linesText_colored (flags : Flags) (total : Report) {files : List CheckedFile}
    (hchecked : AreChecked files) (hpaths : ∀ file ∈ files, escape ∉ file.path.toList) :
    Terminal.strip (linesText true (listingWith flags total files)).toList =
      (linesText false (listingWith flags total files)).toList ∧
    escape ∉ (linesText false (listingWith flags total files)).toList ∧
    (∀ pieces ∈ listingWith flags total files,
      (Terminal.run {} (showPieces true pieces).toList).2 = {}) ∧
    ∀ front cell back, Terminal.cells (linesText true (listingWith flags total files)).toList =
        front ++ cell :: back → cell.char = '\n' →
      cell.styles = [] ∨ cell.styles = [.bold] ∧ Terminal.IsInPath files front back := by
  have hworded : ∀ file ∈ files, ∀ d ∈ file.diagnostics, d.IsWorded := by
    intro file hfile d hd
    obtain ⟨result, hresult, hd⟩ := List.mem_flatMap.mp hd
    obtain ⟨c, location, line, hparse⟩ := hchecked file hfile result hresult
    exact Classifier.isWorded_of_parse hparse d hd
  have hlisted := isListed_listingWith flags total hworded hpaths
  have hescape : ∀ pieces ∈ listingWith flags total files, ∀ piece ∈ pieces,
      escape ∉ piece.text.toList := fun pieces hpieces piece hpiece =>
    (hlisted pieces hpieces piece hpiece).escape_notMem
  have hended := Terminal.isListed_endedPieces hlisted
  -- The text, the styles and the line feeds are all read off the cells.
  have hcells := Terminal.cells_linesText hescape
  have hplain := Terminal.map_char_lineCells (listingWith flags total files)
  rw [Terminal.flatMap_lineCells] at hcells hplain
  refine ⟨?_, ?_, fun pieces hpieces => ?_, fun front cell back hsplit hlf => ?_⟩
  · rw [Terminal.strip, hcells, hplain]
  · rw [← hplain]
    intro hmem
    obtain ⟨cell, hcell, hchar⟩ := List.mem_map.mp hmem
    obtain ⟨piece, hpiece, hcell⟩ := List.mem_flatMap.mp hcell
    obtain ⟨c, hc, rfl⟩ := List.mem_map.mp hcell
    exact (hended piece hpiece).escape_notMem (hchar ▸ hc)
  · rw [Terminal.run_showPieces (hescape pieces hpieces)]
  · rw [hcells] at hsplit
    exact Terminal.styles_of_lf hended hsplit hlf

/-- A filter whose path has a line feed, with an error in its one line. -/
def brokenPath : CheckedFile :=
  { path := "a\nb.filter"
    results := ((Classifier.parse ⟨{}, true⟩ ⟨some "a\nb.filter", 0⟩
      "ItemLevel x".toList).toOption.map fun result => [result]).getD []
    fixed := 0
    saved := false }

theorem areChecked_brokenPath : AreChecked [brokenPath] := by
  intro file hfile result hresult
  obtain rfl := List.mem_singleton.mp hfile
  unfold brokenPath at hresult
  dsimp only at hresult
  rcases hparse : Classifier.parse ⟨{}, true⟩ ⟨some "a\nb.filter", 0⟩ "ItemLevel x".toList with
    e | found
  · rw [hparse] at hresult
    cases hresult
  · rw [hparse] at hresult
    obtain rfl := List.mem_singleton.mp hresult
    exact ⟨_, _, _, hparse⟩

/-- The listing of a filter whose path has a line feed. -/
theorem linesText_colored_brokenPath :
    AreChecked [brokenPath] ∧ (∀ file ∈ [brokenPath], escape ∉ file.path.toList) ∧
    Terminal.strip (linesText true (listing {} [brokenPath])).toList =
      (linesText false (listing {} [brokenPath])).toList ∧
    escape ∉ (linesText false (listing {} [brokenPath])).toList ∧
    (∀ pieces ∈ listing {} [brokenPath],
      (Terminal.run {} (showPieces true pieces).toList).2 = {}) ∧
    ∀ front cell back, Terminal.cells (linesText true (listing {} [brokenPath])).toList =
        front ++ cell :: back → cell.char = '\n' →
      cell.styles = [] ∨ cell.styles = [.bold] ∧ Terminal.IsInPath [brokenPath] front back := by
  have hpaths : ∀ file ∈ [brokenPath], escape ∉ file.path.toList := by decide
  exact ⟨areChecked_brokenPath, hpaths,
    linesText_colored {} (totalReport [brokenPath]) areChecked_brokenPath hpaths⟩

/-- A line feed in a path is bold, so that a style may be switched on in one line of the output and
off in the next one. -/
theorem exists_styled_lf :
    ¬ ∀ (flags : Flags) (total : Report) (files : List CheckedFile), AreChecked files →
      (∀ file ∈ files, escape ∉ file.path.toList) →
      ∀ cell ∈ Terminal.cells (linesText true (listingWith flags total files)).toList,
        cell.char = '\n' → cell.styles = [] := by
  intro h
  have hpaths : ∀ file ∈ [brokenPath], escape ∉ file.path.toList := by decide
  have hbold : ⟨'\n', [.bold]⟩ ∈
      Terminal.cells (linesText true (listing {} [brokenPath])).toList := by decide +kernel
  have hnone :=
    h {} (totalReport [brokenPath]) [brokenPath] areChecked_brokenPath hpaths _ hbold rfl
  cases hnone

end ItemFilter
