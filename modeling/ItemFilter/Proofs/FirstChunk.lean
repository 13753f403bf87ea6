import ItemFilter.Proofs.TrailingComment

/-!
# The first chunk of a line

What a line is can be told from its first run of characters without white space. A chunk that
starts with a comment sign makes the line a comment, the name of a keyword makes it a block or a
rule, and any other chunk makes it an unknown line, whose error names the chunk if it is a word and
the whole line otherwise.

## Main definitions

* `Opening`: what the first chunk of a line can be
* `Opening.Fits`: the chunks of each kind
* `LineResult.FollowsChunk`: what is found in a line with a certain first chunk

## Main results

* `Opening.existsUnique_fits`: a chunk is of one kind only
* `Classifier.opening_classify_iff`: a line is what its first chunk says
* `Classifier.parse_followsChunk`: so is what is found in a line without line breaks
-/

namespace ItemFilter

open Text
open Cursor hiding read

/-! ## Chunks -/

namespace Text

/-- A run without white space between white space and a boundary is the first chunk. -/
theorem chunk_append {gap run after : Text} (hgap : allBlank gap = true) (hne : run ≠ [])
    (hrun : ∀ x ∈ run, isBlank x = false) (hb : atBoundary after = true) :
    chunk (gap ++ run ++ after) = run := by
  have hrun' : ∀ x ∈ run, (!isBlank x) = true := fun x hx => by rw [hrun x hx, Bool.not_false]
  have hflush : IsFlush run := isFlush_of_forall (fun x => by simp) hne hrun'
  rw [chunk, List.append_assoc, trimStart_append_of_flush hgap (hflush.append after)]
  exact takeWhile_append_boundary (fun x => by simp) hrun' hb

theorem head?_chunk (text : Text) : (chunk text).head? = (trimStart text).head? := by
  rw [chunk]
  cases h : allBlank text with
  | true => rw [trimStart_of_allBlank h, List.takeWhile_nil]
  | false =>
    obtain ⟨c, rest, htrim, hc⟩ := isFlush_trimStart h
    rw [htrim, List.takeWhile_cons_of_pos (by simp [hc]), List.head?_cons, List.head?_cons]

/-- Only a blank text has no chunk. -/
theorem chunk_eq_nil_iff {text : Text} : chunk text = [] ↔ allBlank text = true := by
  rw [← List.head?_eq_none_iff, head?_chunk, List.head?_eq_none_iff, allBlank, List.all_eq_true]
  exact List.dropWhile_eq_nil_iff

end Text

theorem Text.allBlank_of_chunk_ne {text : Text} (h : chunk text ≠ []) : allBlank text = false := by
  rwa [← Bool.not_eq_true, ← chunk_eq_nil_iff]

theorem Cursor.isWordChar_iff {x : Char} : isWordChar x = true ↔ x.isAlpha = true ∨ x = 'ö' := by
  rw [isWordChar, Bool.or_eq_true, beq_iff_eq]

theorem Cursor.extent_eq_spanOf {text : Text} (h : allBlank text = false) :
    extent text = spanOf (leading text) (trim text) := by
  rw [extent, h, spanOf, byteLength_append]
  rfl

/-! ## Openings -/

/-- What the first chunk of a line can be. -/
inductive Opening where
  /-- There is no chunk. -/
  | nothing
  /-- The chunk starts with a comment sign. -/
  | sign
  /-- The chunk is the name of a keyword that opens a block. -/
  | blockName
  /-- The chunk is the name of the keyword of a rule. -/
  | ruleName (keyword : Keyword)
  /-- The chunk is none of these. -/
  | other
  deriving DecidableEq, Repr

/-- What the first chunk of a line was taken for. -/
def LineKind.opening {ρ : Type} : LineKind ρ → Opening
  | comment _ => .sign
  | empty => .nothing
  | block _ => .blockName
  | rule line => .ruleName line.keyword.value
  | unknown _ => .other

namespace Opening

/-- The chunks of each kind. -/
def Fits (chunk : Text) : Opening → Prop
  | nothing => chunk = []
  | sign => chunk.head? = some '#'
  | blockName => chunk = "Show".toList ∨ chunk = "Hide".toList
  | ruleName keyword => keyword.kind ≠ .block ∧ chunk = keyword.name.toList
  | other =>
    chunk ≠ [] ∧ chunk.head? ≠ some '#' ∧ ∀ keyword : Keyword, chunk ≠ keyword.name.toList

/-- The kind of a chunk. -/
def ofChunk (chunk : Text) : Opening :=
  if chunk = [] then .nothing
  else if chunk.head? = some '#' then .sign
  else
    match Keyword.ofName? chunk with
    | none => .other
    | some keyword => if keyword.kind = .block then .blockName else .ruleName keyword

variable {chunk : Text} {opening : Opening}

theorem ofName?_eq_none_iff {word : Text} :
    Keyword.ofName? word = none ↔ ∀ keyword : Keyword, word ≠ keyword.name.toList := by
  rw [Option.eq_none_iff_forall_ne_some]
  exact forall_congr' fun keyword => not_congr Keyword.ofName?_eq_some_iff

/-- The names of keywords start with a letter. -/
theorem head?_name_ne (keyword : Keyword) : keyword.name.toList.head? ≠ some '#' := by
  cases keyword <;> decide

/-- The keywords that open a block are those with the two names. -/
theorem blockName_fits_iff :
    blockName.Fits chunk ↔
      ∃ keyword : Keyword, keyword.kind = .block ∧ chunk = keyword.name.toList := by
  constructor
  · rintro (rfl | rfl)
    · exact ⟨.showBlock, rfl, rfl⟩
    · exact ⟨.hideBlock, rfl, rfl⟩
  · rintro ⟨keyword, hkind, rfl⟩
    cases keyword <;> cases hkind
    · exact Or.inl rfl
    · exact Or.inr rfl

theorem ofChunk_name (keyword : Keyword) :
    ofChunk keyword.name.toList =
      if keyword.kind = .block then .blockName else .ruleName keyword := by
  rw [ofChunk, if_neg keyword.name_ne_nil, if_neg (head?_name_ne keyword),
    Keyword.ofName?_eq_some_iff.mpr rfl]

theorem fits_ofChunk (chunk : Text) : (ofChunk chunk).Fits chunk := by
  by_cases hnil : chunk = []
  · rw [ofChunk, if_pos hnil]
    exact hnil
  · by_cases hsign : chunk.head? = some '#'
    · rw [ofChunk, if_neg hnil, if_pos hsign]
      exact hsign
    · cases hname : Keyword.ofName? chunk with
      | none =>
        rw [ofChunk, if_neg hnil, if_neg hsign, hname]
        exact ⟨hnil, hsign, ofName?_eq_none_iff.mp hname⟩
      | some keyword =>
        obtain rfl := Keyword.ofName?_eq_some_iff.mp hname
        rw [ofChunk_name]
        split
        · next hkind => exact blockName_fits_iff.mpr ⟨keyword, hkind, rfl⟩
        · next hkind => exact ⟨hkind, rfl⟩

theorem ofChunk_of_fits (h : opening.Fits chunk) : ofChunk chunk = opening := by
  cases opening with
  | nothing =>
    obtain rfl : chunk = [] := h
    rfl
  | sign =>
    obtain ⟨rest, rfl⟩ := List.head?_eq_some_iff.mp h
    rfl
  | blockName =>
    obtain ⟨keyword, hkind, rfl⟩ := blockName_fits_iff.mp h
    rw [ofChunk_name, if_pos hkind]
  | ruleName keyword =>
    obtain ⟨hkind, rfl⟩ := h
    rw [ofChunk_name, if_neg hkind]
  | other =>
    obtain ⟨hnil, hsign, hnames⟩ := h
    rw [ofChunk, if_neg hnil, if_neg hsign, ofName?_eq_none_iff.mpr hnames]

/-- The kind of a chunk is the one it fits. -/
theorem ofChunk_eq_iff : ofChunk chunk = opening ↔ opening.Fits chunk :=
  ⟨fun h => h ▸ fits_ofChunk chunk, ofChunk_of_fits⟩

instance : Decidable (opening.Fits chunk) :=
  decidable_of_iff (ofChunk chunk = opening) ofChunk_eq_iff

/-- A chunk is of one kind only. -/
theorem existsUnique_fits (chunk : Text) : ∃! opening : Opening, opening.Fits chunk :=
  ⟨ofChunk chunk, fits_ofChunk chunk, fun _ h => (ofChunk_of_fits h).symm⟩

end Opening

/-! ## Reading the first word -/

namespace Cursor

variable {line : Text}

/-- A first chunk of letters is the first word. -/
theorem word_atStart (hne : chunk line ≠ []) (hall : ∀ x ∈ chunk line, isWordChar x = true) :
    (atStart line).word = (some ⟨chunk line, spanOf (leading line) (chunk line)⟩,
      (atStart line).pass (leading line ++ chunk line) (afterChunk line)) := by
  have hrest : (atStart line).rest = leading line ++ chunk line ++ afterChunk line :=
    eq_of_chunk rfl
  exact read_eq_some_iff.mpr (scan?_of_spelled matchWord_reads hrest (allBlank_leading line)
    ⟨hne, hall, rfl⟩ (atBoundary_afterChunk line))

/-- A line whose first chunk has another character does not start with a word. -/
theorem word_atStart_of_not (hnot : ¬ ∀ x ∈ chunk line, isWordChar x = true) :
    (atStart line).word = (none, atStart line) := by
  refine read_of_scan?_eq_none ?_
  cases hscan : scan? matchWord (atStart line) with
  | none => rfl
  | some found =>
    obtain ⟨gap, lexeme, after, hrest, hgap, ⟨hne, hall, -⟩, hb, -, -⟩ :=
      exists_spelled_of_scan? matchWord_reads hscan
    obtain rfl : line = gap ++ lexeme ++ after := hrest
    -- The word that was read would be the first chunk.
    rw [chunk_append hgap hne (fun x hx => isBlank_of_isWordChar (hall x hx)) hb] at hnot
    exact absurd hall hnot

end Cursor

/-! ## Classification -/

namespace Classifier

variable (c : Classifier) {line : Text}

theorem isCommented_atStart :
    (atStart line).isCommented = true ↔ (chunk line).head? = some '#' := by
  rw [isCommented, atStart_rest, head?_chunk, beq_iff_eq]

theorem isEmpty_atStart : (atStart line).isEmpty = true ↔ chunk line = [] :=
  chunk_eq_nil_iff.symm

theorem classify_of_nothing (h : chunk line = []) :
    c.classify (atStart line) = { kind := .empty } := by
  have hcomment : ¬ (atStart line).isCommented = true := by
    rw [isCommented_atStart, h]
    nofun
  rw [classify, if_neg hcomment, if_pos (isEmpty_atStart.mpr h)]

theorem classify_of_sign (h : (chunk line).head? = some '#') :
    c.classify (atStart line) = { kind := .comment ⟨commentBody line, extent line⟩ } := by
  rw [classify, if_pos (isCommented_atStart.mpr h)]
  rfl

theorem classify_of_name {keyword : Keyword} (h : chunk line = keyword.name.toList) :
    c.classify (atStart line) = c.keywordLine ⟨keyword, spanOf (leading line) keyword.name.toList⟩
      ⟨leading line ++ keyword.name.toList, afterChunk line, extent line⟩ :=
  c.classify_keyword keyword (eq_of_chunk h) (allBlank_leading line) (atBoundary_afterChunk line)

/-- A word that is no keyword is reported as such. -/
theorem classify_of_word (h : Opening.other.Fits (chunk line))
    (hall : ∀ x ∈ chunk line, isWordChar x = true) :
    c.classify (atStart line) =
      unknownLine ((atStart line).pass (leading line ++ chunk line) (afterChunk line))
        (unknownKeyword ⟨chunk line, spanOf (leading line) (chunk line)⟩) := by
  obtain ⟨hne, hsign, hnames⟩ := h
  rw [classify, if_neg (mt isCommented_atStart.mp hsign), if_neg (mt isEmpty_atStart.mp hne),
    word_atStart hne hall]
  simp only [Opening.ofName?_eq_none_iff.mpr hnames]

/-- A chunk that is no word is reported with everything behind it. -/
theorem classify_of_not_word (h : Opening.other.Fits (chunk line))
    (hnot : ¬ ∀ x ∈ chunk line, isWordChar x = true) :
    c.classify (atStart line) =
      unknownLine (atStart line)
        (unreadableKeyword ⟨byteLength (leading line), byteLength line⟩) := by
  obtain ⟨hne, hsign, -⟩ := h
  rw [classify, if_neg (mt isCommented_atStart.mp hsign), if_neg (mt isEmpty_atStart.mp hne),
    word_atStart_of_not hnot]
  simp only [atStart, extent_of_not (allBlank_of_chunk_ne hne), length, text, List.nil_append]

/-- A line with any other first chunk is unknown, with one error that has no fix. -/
theorem exists_of_other (h : Opening.other.Fits (chunk line)) :
    ∃ text d, c.classify (atStart line) = { kind := .unknown text, diagnostics := [d] } ∧
      d.isError = true ∧ d.fix = none ∧
      ((∀ x ∈ chunk line, isWordChar x = true) →
        d.excerpt = "Unknown filter keyword." ∧
          d.range = spanOf (leading line) (chunk line)) ∧
      ((¬ ∀ x ∈ chunk line, isWordChar x = true) →
        d.excerpt = "Unreadable keyword, likely due to a stray character." ∧
          d.range = ⟨byteLength (leading line), byteLength line⟩) := by
  by_cases hall : ∀ x ∈ chunk line, isWordChar x = true
  · exact ⟨_, _, c.classify_of_word h hall, rfl, rfl, fun _ => ⟨rfl, rfl⟩,
      fun hnot => absurd hall hnot⟩
  · exact ⟨_, _, c.classify_of_not_word h hall, rfl, rfl, fun hall' => absurd hall' hall,
      fun _ => ⟨rfl, rfl⟩⟩

theorem opening_of_fits {opening : Opening} (h : opening.Fits (chunk line)) :
    (c.classify (atStart line)).kind.opening = opening := by
  cases opening with
  | nothing =>
    rw [c.classify_of_nothing h]
    rfl
  | sign =>
    rw [c.classify_of_sign h]
    rfl
  | blockName =>
    obtain ⟨keyword, hkind, hname⟩ := Opening.blockName_fits_iff.mp h
    rw [c.classify_of_name hname, keywordLine, hkind]
    rfl
  | ruleName keyword =>
    obtain ⟨hkind, hname⟩ := h
    rw [c.classify_of_name hname, keywordLine]
    split
    · next hblock => exact absurd hblock hkind
    · rfl
  | other =>
    obtain ⟨text, d, hline, -⟩ := c.exists_of_other h
    rw [hline]
    rfl

/-- A line is what its first chunk says. -/
theorem opening_classify_iff {opening : Opening} :
    (c.classify (atStart line)).kind.opening = opening ↔ opening.Fits (chunk line) := by
  rw [c.opening_of_fits (Opening.fits_ofChunk (chunk line)), Opening.ofChunk_eq_iff]

end Classifier

@[simp] theorem LineResult.opening_place (result : LineResult Span) (location : Location) :
    (result.place location).kind.opening = result.kind.opening := by
  obtain ⟨kind, -, -⟩ := result
  cases kind <;> rfl

/-- The body of a comment stands behind the first comment sign. -/
theorem exists_commentBody {line : Text} (h : (chunk line).head? = some '#') :
    ∃ before after, line = before ++ '#' :: after ∧ '#' ∉ before ∧
      commentBody line = trim after := by
  rw [head?_chunk] at h
  obtain ⟨gap, text, rfl, hgap⟩ := exists_sign h
  have hsign : IsFlush ('#' :: text) := isFlush_cons.mpr (by decide)
  have hsignEnd : IsFlush (trimEnd ('#' :: text)) := by
    rw [trimEnd_cons (by decide)]
    exact isFlush_cons.mpr (by decide)
  refine ⟨gap, text, rfl, fun hmem => ?_, ?_⟩
  · exact absurd (List.all_eq_true.mp hgap _ hmem) (by decide)
  · -- Both bodies are read from the trimmed line.
    have hline : trim (gap ++ '#' :: text) = trimEnd ('#' :: text) := by
      rw [trim, trimStart_append_of_flush hgap hsign]
    have hcomment : trim (trimEnd ('#' :: text)) = trimEnd ('#' :: text) := by
      rw [trim, hsignEnd.trimStart, trimEnd_trimEnd]
    rw [← commentBody_trimEnd text, commentBody, commentBody, hline, hcomment]

/-- What is found in a line with a certain first chunk. -/
structure LineResult.FollowsChunk (result : LineResult Range) (location : Location)
    (line : Text) : Prop where
  /-- The kind of the line is that of its first chunk. -/
  kind : ∀ opening, result.kind.opening = opening ↔ opening.Fits (chunk line)
  /-- Nothing is wrong with a comment. It covers the trimmed line, and its body is what stands
  behind the first comment sign. -/
  comment : ∀ body, result.kind = .comment body →
    result.diagnostics = [] ∧
      body.range = Range.on location.line (spanOf (leading line) (trim line)) ∧
      ∃ before after, line = before ++ '#' :: after ∧ '#' ∉ before ∧ body.value = trim after
  /-- A block is never invalid. -/
  block : ∀ block, result.kind = .block block → result.invalid = false
  /-- An unknown line has one error, which offers no fix. It is about the chunk if the chunk
  consists of letters, and about everything from the chunk to the end of the line otherwise. -/
  unknown : ∀ text, result.kind = .unknown text →
    ∃ d, result.diagnostics = [d] ∧ d.isError = true ∧ d.fix = none ∧
      ((∀ x ∈ chunk line, x.isAlpha = true ∨ x = 'ö') →
        d.excerpt = "Unknown filter keyword." ∧
          d.range = Range.on location.line (spanOf (leading line) (chunk line))) ∧
      ((¬ ∀ x ∈ chunk line, x.isAlpha = true ∨ x = 'ö') →
        d.excerpt = "Unreadable keyword, likely due to a stray character." ∧
          d.range = ⟨location.line, byteLength (leading line), byteLength line⟩)

namespace Classifier

variable (c : Classifier) (location : Location)

theorem followsChunk_classify (line : Text) :
    ((c.classify (atStart line)).place location).FollowsChunk location line := by
  have hkind (opening : Opening) :
      ((c.classify (atStart line)).place location).kind.opening = opening ↔
        opening.Fits (chunk line) := by
    rw [LineResult.opening_place, c.opening_classify_iff]
  refine ⟨hkind, ?comment, ?block, ?unknown⟩
  case comment =>
    intro body hbody
    have hsign : (chunk line).head? = some '#' := (hkind .sign).mp (by rw [hbody]; rfl)
    have hne : chunk line ≠ [] := by
      intro hnil
      rw [hnil] at hsign
      cases hsign
    obtain ⟨before, after, hline, hbefore, htext⟩ := exists_commentBody hsign
    rw [c.classify_of_sign hsign] at hbody ⊢
    obtain rfl := LineKind.comment.inj hbody
    exact ⟨rfl, congrArg (Range.on _) (extent_eq_spanOf (allBlank_of_chunk_ne hne)), before, after,
      hline, hbefore, htext⟩
  case block =>
    intro block hblock
    obtain ⟨keyword, hkeyword, hname⟩ :=
      Opening.blockName_fits_iff.mp ((hkind .blockName).mp (by rw [hblock]; rfl))
    rw [LineResult.invalid_place, eq_of_chunk hname]
    exact c.invalid_of_block (allBlank_leading line) hkeyword (atBoundary_afterChunk line)
  case unknown =>
    intro text htext
    obtain ⟨_, d, hline, herror, hfix, hword, hnot⟩ :=
      c.exists_of_other ((hkind .other).mp (by rw [htext]; rfl))
    simp only [isWordChar_iff] at hword hnot
    refine ⟨d.map (Range.on location.line) location.file, ?_, herror, ?_, fun hall => ?_,
      fun hother => ?_⟩
    · rw [hline]
      rfl
    · rw [Diagnostic.map, hfix]
      rfl
    · obtain ⟨hexcerpt, hrange⟩ := hword hall
      exact ⟨hexcerpt, congrArg (Range.on _) hrange⟩
    · obtain ⟨hexcerpt, hrange⟩ := hnot hother
      exact ⟨hexcerpt, congrArg (Range.on _) hrange⟩

/-- A line without line breaks is what its first chunk says: empty without one, a comment, a block
or a rule if the chunk starts with a comment sign or is the name of a keyword, and unknown
otherwise. Each chunk is of exactly one of these kinds. -/
theorem parse_followsChunk {line : Text} (hline : ∀ x ∈ line, breaksLine x = false) :
    (∃! opening : Opening, opening.Fits (chunk line)) ∧
      ∃ result, c.parse location line = .ok result ∧ result.FollowsChunk location line :=
  ⟨Opening.existsUnique_fits _, _, c.parse_of_unbroken location hline,
    c.followsChunk_classify location line⟩

/-- A word with an umlaut that is no keyword is reported as a word. -/
theorem parse_followsChunk_umlaut :
    ∃ result d, parse ⟨{}, true⟩ {} " Höhe 5 # Zoll".toList = .ok result ∧
      result.diagnostics = [d] ∧ d.excerpt = "Unknown filter keyword." ∧ d.range = ⟨0, 1, 6⟩ := by
  have hline : Unbroken " Höhe 5 # Zoll".toList := unbroken_iff.mpr (by decide)
  obtain ⟨-, result, hparse, hfollows⟩ := parse_followsChunk ⟨{}, true⟩ {} hline
  have hkind : result.kind.opening = .other := (hfollows.kind .other).mpr (by decide)
  obtain ⟨text, htext⟩ : ∃ text, result.kind = .unknown text := by
    cases hresult : result.kind <;> rw [hresult] at hkind <;> cases hkind
    exact ⟨_, rfl⟩
  obtain ⟨d, hd, -, -, hword, -⟩ := hfollows.unknown text htext
  have hletters : (chunk " Höhe 5 # Zoll".toList).all isWordChar = true := by decide
  obtain ⟨hexcerpt, hrange⟩ :=
    hword fun x hx => isWordChar_iff.mp (List.all_eq_true.mp hletters x hx)
  exact ⟨result, d, hparse, hd, hexcerpt, hrange⟩

end Classifier

end ItemFilter
