import ItemFilter.Line.Classifier

/-!
# The wording of problems

What is said about a problem is put together from fixed words, the names of keywords and numbers.
Nothing that stands in a line gets into it, so it can be shown to a reader as it is, whatever the
line holds.

## Main definitions

* `MadeOf`, `isReadable`: strings that are made of characters that can be shown to a reader
* `Rule.Problem`: the problems that can be reported behind a keyword
* `Diagnostic.IsWorded`: a problem with readable wording

## Main results

* `Rule.reports_arguments`: nothing else is reported behind a keyword
* `Classifier.isWorded_of_parse`: the problems of a line have readable wording
-/

namespace ItemFilter

open Text Outcome

/-! ## Readable strings -/

/-- A string that is made of characters of a kind. -/
def MadeOf (p : Char → Bool) (s : String) : Prop :=
  s.toList.all p = true

/-- Whether a character is printable and stays on the line. -/
def isPrintable (c : Char) : Bool :=
  ' ' ≤ c && c ≤ '~'

/-- Whether a character is printable, or starts a new line or column. -/
def isReadable (c : Char) : Bool :=
  isPrintable c || c == '\n' || c == '\t'

section

variable {p : Char → Bool} {s t : String}

theorem MadeOf.of_mem (h : MadeOf p s) {c : Char} (hc : c ∈ s.toList) : p c = true :=
  List.all_eq_true.mp h c hc

theorem MadeOf.notMem (h : MadeOf p s) {c : Char} (hc : p c = false) : c ∉ s.toList := fun hmem =>
  Bool.eq_false_iff.mp hc (h.of_mem hmem)

/-- Fixed words are looked at character by character. -/
theorem madeOf_literal {text : Text} (h : text.all p = true) : MadeOf p (String.ofList text) := by
  rw [MadeOf, String.toList_ofList, h]

theorem madeOf_append : MadeOf p (s ++ t) ↔ MadeOf p s ∧ MadeOf p t := by
  simp [MadeOf]

/-- Something between fixed words. -/
theorem madeOf_around {before after : Text} (hbefore : before.all p = true) (h : MadeOf p s)
    (hafter : after.all p = true) :
    MadeOf p (String.ofList before ++ s ++ String.ofList after) := by
  rw [madeOf_append, madeOf_append]
  exact ⟨⟨madeOf_literal hbefore, h⟩, madeOf_literal hafter⟩

/-- Strings that are put together. -/
theorem madeOf_join {parts : List String} (h : ∀ s ∈ parts, MadeOf p s) :
    MadeOf p (String.join parts) := by
  rw [MadeOf, String.toList_join, List.all_flatMap, List.all_eq_true]
  exact h

theorem madeOf_intercalate {parts : List String} (hs : MadeOf p s)
    (h : ∀ t ∈ parts, MadeOf p t) : MadeOf p (s.intercalate parts) := by
  induction parts with
  | nil => rfl
  | cons part parts ih =>
    rw [List.forall_mem_cons] at h
    cases parts with
    | nil =>
      rw [String.intercalate_singleton]
      exact h.1
    | cons next parts =>
      rw [String.intercalate_cons_cons]
      exact madeOf_append.mpr ⟨madeOf_append.mpr ⟨h.1, hs⟩, ih h.2⟩

end

theorem isPrintable_of_isDigit {c : Char} (h : c.isDigit = true) : isPrintable c = true := by
  simp only [Char.isDigit, ge_iff_le, UInt32.le_iff_toNat_le, Bool.and_eq_true,
    decide_eq_true_eq] at h
  simp only [isPrintable, Char.le_def, UInt32.le_iff_toNat_le, Bool.and_eq_true, decide_eq_true_eq]
  exact ⟨Nat.le_trans (by decide) h.1, Nat.le_trans h.2 (by decide)⟩

theorem MadeOf.readable {s : String} (h : MadeOf isPrintable s) : MadeOf isReadable s := by
  refine List.all_eq_true.mpr fun c hc => ?_
  rw [isReadable, h.of_mem hc]
  rfl

/-- A number is written with digits. -/
theorem madeOf_nat (n : Nat) : MadeOf isPrintable n.repr := by
  rw [MadeOf, Nat.toList_repr, List.all_eq_true]
  exact fun c hc => isPrintable_of_isDigit (Nat.isDigit_of_mem_toDigits (by decide) (by decide) hc)

theorem madeOf_int (n : Int) : MadeOf isPrintable n.repr := by
  cases n with
  | ofNat n => exact madeOf_nat n
  | negSucc n =>
    have hsign : (Int.negSucc n).repr = "-" ++ (n + 1).repr := rfl
    rw [hsign, madeOf_append]
    exact ⟨madeOf_literal (by decide), madeOf_nat (n + 1)⟩

theorem Keyword.readable_name (keyword : Keyword) : MadeOf isReadable keyword.name := by
  cases keyword <;> exact madeOf_literal (by decide)

theorem Bounds.readable_display (bounds : Bounds) : MadeOf isReadable bounds.display :=
  madeOf_append.mpr ⟨madeOf_append.mpr ⟨(madeOf_int bounds.least).readable,
    madeOf_literal (by decide)⟩, (madeOf_int bounds.greatest).readable⟩

/-! ## Problems -/

/-- A problem with readable wording, whose fix, if there is one, has the usual title. -/
structure Diagnostic.IsWorded {ρ : Type} (d : Diagnostic ρ) : Prop where
  /-- The problem in short. -/
  excerpt : MadeOf isReadable d.excerpt
  /-- The problem at length. -/
  description : ∀ text, d.description = some text → MadeOf isReadable text
  /-- A fix comments something out. -/
  title : ∀ fix, d.fix = some fix → fix.title = commentTitle

theorem Diagnostic.IsWorded.map {ρ σ : Type} {d : Diagnostic ρ} (h : d.IsWorded) (f : ρ → σ)
    (file : Option String) : (d.map f file).IsWorded where
  excerpt := h.excerpt
  description := h.description
  title fix hfix := by
    obtain ⟨original, horiginal, rfl⟩ := Option.map_eq_some_iff.mp hfix
    exact h.title original horiginal

/-- A problem can be described at length. -/
theorem Diagnostic.IsWorded.describe {ρ : Type} {d : Diagnostic ρ} (h : d.IsWorded) {text : String}
    (htext : MadeOf isReadable text) : Diagnostic.IsWorded { d with description := some text } where
  excerpt := h.excerpt
  description := by
    rintro other ⟨⟩
    exact htext
  title := h.title

namespace Rule

section

variable (keyword : Keyword) (span : Span)

theorem isWorded_badOperator : (badOperator keyword span).IsWorded := by
  refine ⟨madeOf_around (by decide) keyword.readable_name (by decide), ?_, nofun⟩
  rintro text ⟨⟩
  exact madeOf_append.mpr ⟨madeOf_literal (by decide), madeOf_literal (by decide)⟩

theorem isWorded_badComment : (badComment keyword span).IsWorded := by
  refine ⟨madeOf_around (by decide) keyword.readable_name (by decide), ?_, nofun⟩
  rintro text ⟨⟩
  exact madeOf_append.mpr ⟨madeOf_append.mpr
    ⟨madeOf_literal (by decide), madeOf_literal (by decide)⟩, madeOf_literal (by decide)⟩

theorem isWorded_badFormat {usage : String} (husage : MadeOf isReadable usage) (page : Page)
    (cursor : Cursor) : (badFormat keyword usage page cursor).IsWorded where
  excerpt := madeOf_append.mpr
    ⟨madeOf_append.mpr ⟨madeOf_around (by decide) keyword.readable_name (by decide), husage⟩,
      madeOf_literal (by decide)⟩
  description := nofun
  title := nofun

theorem isWorded_badValue {expected : String} (hexpected : MadeOf isReadable expected)
    (page : Page) : (badValue keyword span expected page).IsWorded where
  excerpt := madeOf_append.mpr
    ⟨madeOf_append.mpr
      ⟨madeOf_around (by decide) keyword.readable_name (by decide), hexpected⟩,
      madeOf_literal (by decide)⟩
  description := nofun
  title := nofun

theorem isWorded_needlessOperator : (needlessOperator keyword span).IsWorded :=
  ⟨madeOf_around (by decide) keyword.readable_name (by decide), nofun, nofun⟩

theorem isWorded_outOfBounds (bounds : Bounds) : (outOfBounds keyword span bounds).IsWorded where
  excerpt := madeOf_append.mpr
    ⟨madeOf_append.mpr
      ⟨madeOf_around (by decide) keyword.readable_name (by decide), bounds.readable_display⟩,
      madeOf_literal (by decide)⟩
  description := nofun
  title := nofun

theorem isWorded_wrongWord : (wrongWord keyword span).IsWorded :=
  ⟨madeOf_around (by decide) keyword.readable_name (by decide), nofun, nofun⟩

end

/-- The problems that can be reported for what follows the keyword of a rule. -/
inductive Problem (keyword : Keyword) : ArgumentRule → Diagnostic Span → Prop where
  /-- An operator that is not `=`. -/
  | badOperator {rule : ArgumentRule} (span : Span) :
    Problem keyword rule (badOperator keyword span)
  /-- A comment that is not allowed. -/
  | badComment {rule : ArgumentRule} (span : Span) : Problem keyword rule (badComment keyword span)
  /-- Arguments that cannot be read. -/
  | badFormat {rule : ArgumentRule} {usage : String} (husage : MadeOf isReadable usage)
    (page : Page) (cursor : Cursor) :
    Problem keyword rule (badFormat keyword usage page cursor)
  /-- An operator where none is allowed. -/
  | needlessOperator {rule : ArgumentRule} (span : Span) :
    Problem keyword rule (needlessOperator keyword span)
  /-- A number outside its bounds. -/
  | outOfBounds {rule : ArgumentRule} (span : Span) (bounds : Bounds) :
    Problem keyword rule (outOfBounds keyword span bounds)
  /-- One of several numbers outside its bounds. -/
  | badNumber {rule : ArgumentRule} (span : Span) (bounds : Bounds) :
    Problem keyword rule (badValue keyword span bounds.display .actions)
  /-- A number that is not in the list. -/
  | notAllowed (allowed : List Int) (span : Span) :
    Problem keyword (.operatorNumber allowed)
      (badValue keyword span (",".intercalate (allowed.map toString)) .conditions)
  /-- No truth value. -/
  | noTruth (cursor : Cursor) :
    Problem keyword .boolean
      { Outcome.badFormat keyword "<Boolean>" .conditions cursor with
        description := some "A Boolean is a binary value that can be either 'True' or 'False'" }
  /-- A word that is not in the list. -/
  | notChosen (allowed : List String) (span : Span) :
    Problem keyword (.oneOf allowed)
      { wrongWord keyword span with
        description := some ("The following values are valid for this rule:\n" ++
          String.join (allowed.map fun choice => "\n\t" ++ choice)) }
  /-- No group of sockets. -/
  | noSockets (span : Span) :
    Problem keyword .socketGroup
      { wrongWord keyword span with
        excerpt := s!"Invalid value for \"{keyword.name}\" rule. " ++
          "Valid characters are: R, G, B, W." }
  /-- A name that is not in the catalog. -/
  | wrongWord {rule : ArgumentRule} (span : Span) : Problem keyword rule (wrongWord keyword span)
  /-- No names. -/
  | noNames (names : NameKind) (cursor : Cursor) :
    Problem keyword (.catalogList names)
      { Outcome.badFormat keyword "<Text>..." .conditions cursor with
        description := some <|
          s!"The '{keyword.name}' keyword should be followed by a list of words or strings." ++
          "\n\nAny value consisting of multiple words should be surrounded by double " ++
          "quotation marks." }

/-- The problems behind a keyword have readable wording. -/
theorem Problem.isWorded {keyword : Keyword} {category : Category} {rule : ArgumentRule}
    {d : Diagnostic Span} (h : Problem keyword rule d)
    (hkind : keyword.kind = .rule category rule) : d.IsWorded := by
  cases h with
  | badOperator span => exact isWorded_badOperator keyword span
  | badComment span => exact isWorded_badComment keyword span
  | badFormat husage page cursor => exact isWorded_badFormat keyword husage page cursor
  | needlessOperator span => exact isWorded_needlessOperator keyword span
  | outOfBounds span bounds => exact isWorded_outOfBounds keyword span bounds
  | badNumber span bounds => exact isWorded_badValue keyword span bounds.readable_display _
  | notAllowed allowed span =>
    refine isWorded_badValue keyword span (madeOf_intercalate (madeOf_literal (by decide)) ?_) _
    intro s hs
    obtain ⟨n, -, rfl⟩ := List.mem_map.mp hs
    exact (madeOf_int n).readable
  | noTruth cursor =>
    have husage : MadeOf isReadable "<Boolean>" := madeOf_literal (by decide)
    exact (isWorded_badFormat keyword husage _ cursor).describe (madeOf_literal (by decide))
  | notChosen allowed span =>
    refine (isWorded_wrongWord keyword span).describe
      (madeOf_append.mpr ⟨madeOf_literal (by decide), madeOf_join fun s hs => ?_⟩)
    obtain ⟨choice, hchoice, rfl⟩ := List.mem_map.mp hs
    refine madeOf_append.mpr ⟨madeOf_literal (by decide), ?_⟩
    -- There is one keyword with a list of choices.
    cases keyword <;> cases hkind
    rcases hchoice with _ | ⟨_, _ | ⟨_, _ | ⟨_, _ | ⟨_, ⟨⟩⟩⟩⟩⟩ <;> exact madeOf_literal (by decide)
  | noSockets span =>
    exact ⟨madeOf_append.mpr ⟨madeOf_around (by decide) keyword.readable_name (by decide),
      madeOf_literal (by decide)⟩, nofun, nofun⟩
  | wrongWord span => exact isWorded_wrongWord keyword span
  | noNames names cursor =>
    have husage : MadeOf isReadable "<Text>..." := madeOf_literal (by decide)
    refine (isWorded_badFormat keyword husage _ cursor).describe (madeOf_append.mpr
      ⟨madeOf_append.mpr ⟨madeOf_around (by decide) keyword.readable_name (by decide),
        madeOf_literal (by decide)⟩, madeOf_literal (by decide)⟩)

/-! ## What is reported behind a keyword -/

/-- All problems of an outcome can be reported behind a keyword. -/
def Reports (keyword : Keyword) (rule : ArgumentRule) (outcome : Outcome) : Prop :=
  ∀ d ∈ outcome.diagnostics, Problem keyword rule d

section

variable {keyword : Keyword} {rule : ArgumentRule} {outcome : Outcome}

theorem reports_of_nil (h : outcome.diagnostics = []) : Reports keyword rule outcome := by
  simp [Reports, h]

theorem Reports.report (h : Reports keyword rule outcome) {d : Diagnostic Span}
    (hd : Problem keyword rule d) : Reports keyword rule (outcome.report d) :=
  List.forall_mem_append.mpr ⟨h, List.forall_mem_singleton.mpr hd⟩

theorem Reports.accept (h : Reports keyword rule outcome) (value : Token Value) :
    Reports keyword rule (outcome.accept value) := h

theorem Reports.captureComment (h : Reports keyword rule outcome) (cursor : Cursor) :
    Reports keyword rule (captureComment outcome cursor).1 := by
  unfold Outcome.captureComment
  split
  · exact h
  · exact h

theorem Reports.rejectComment (h : Reports keyword rule outcome) (cursor : Cursor) :
    Reports keyword rule (rejectComment keyword outcome cursor).1 := by
  unfold Outcome.rejectComment
  split
  · exact h.report (.badComment _)
  · exact h

theorem reports_withEquality {cursor : Cursor}
    {arguments : Option (Token Operator) → Cursor → Outcome × Cursor}
    (h : ∀ operator next, Reports keyword rule (arguments operator next).1) :
    Reports keyword rule (withEquality keyword cursor arguments).1 := by
  unfold withEquality
  split
  · split
    · exact h _ _
    · exact List.forall_mem_singleton.mpr (.badOperator _)
  · exact h _ _

theorem Reports.checkNumbers (h : Reports keyword rule outcome)
    (numbers : List (Token Int × Bounds)) :
    Reports keyword rule (checkNumbers keyword outcome numbers) := by
  unfold Rule.checkNumbers
  dsimp only
  split
  · exact h
  · refine List.forall_mem_append.mpr ⟨h, fun d hd => ?_⟩
    obtain ⟨⟨n, bounds⟩, -, rfl⟩ := List.mem_map.mp hd
    exact .badNumber n.range bounds

end

variable (keyword : Keyword) (cursor : Cursor)

theorem reports_range (bounds : Bounds) (allowed : Bool) :
    Reports keyword (.range bounds allowed) (range keyword bounds allowed cursor).1 := by
  have hnone : Reports keyword (.range bounds allowed) {} := reports_of_nil rfl
  -- An operator is either kept or an error of its own.
  have hsome : ∀ op, Reports keyword (.range bounds allowed)
      (if allowed then { operator := some op }
        else { diagnostics := [needlessOperator keyword op.range] }) := by
    intro op
    split
    · exact reports_of_nil rfl
    · exact hnone.report (.needlessOperator _)
  have husage : MadeOf isReadable (if allowed then "[Operator] <Number>" else "<Number>") := by
    cases allowed <;> exact madeOf_literal (by decide)
  unfold range
  rcases cursor.operator with ⟨_ | op, next⟩
  · refine Reports.rejectComment ?_ _
    dsimp only
    split
    · exact hnone.report (.badFormat husage _ _)
    · split
      · exact hnone.accept _
      · exact hnone.report (.outOfBounds _ _)
  · refine Reports.rejectComment ?_ _
    dsimp only
    split
    · exact (hsome op).report (.badFormat husage _ _)
    · split
      · exact (hsome op).accept _
      · exact (hsome op).report (.outOfBounds _ _)

theorem reports_operatorNumber (allowed : List Int) :
    Reports keyword (.operatorNumber allowed) (operatorNumber keyword allowed cursor).1 := by
  unfold operatorNumber
  dsimp only
  split
  · exact List.forall_mem_singleton.mpr (.badFormat (madeOf_literal (by decide)) _ _)
  · refine Reports.rejectComment ?_ _
    split
    · exact reports_of_nil rfl
    · exact List.forall_mem_singleton.mpr (.notAllowed allowed _)

theorem reports_alertSound : Reports keyword .alertSound (alertSound keyword cursor).1 := by
  refine reports_withEquality fun operator next => ?_
  have hlead : Reports keyword .alertSound { operator } := reports_of_nil rfl
  dsimp only
  split
  · exact hlead.report (.badFormat (madeOf_literal (by decide)) _ _)
  · exact (hlead.checkNumbers _).captureComment _

theorem reports_color : Reports keyword .color (color keyword cursor).1 := by
  refine reports_withEquality fun operator next => ?_
  have hlead : ∀ edits, Reports keyword .color { operator, edits } := fun _ => reports_of_nil rfl
  dsimp only
  split
  · exact (hlead _).report (.badFormat (madeOf_literal (by decide)) _ _)
  · exact ((hlead _).checkNumbers _).captureComment _

theorem reports_boolean : Reports keyword .boolean (boolean keyword cursor).1 := by
  refine reports_withEquality fun operator next => Reports.rejectComment ?_ _
  split
  · exact reports_of_nil rfl
  · exact List.forall_mem_singleton.mpr (.noTruth _)

theorem reports_oneOf (allowed : List String) :
    Reports keyword (.oneOf allowed) (oneOf keyword allowed cursor).1 := by
  unfold oneOf
  dsimp only
  split
  · exact List.forall_mem_singleton.mpr (.badFormat (madeOf_literal (by decide)) _ _)
  · refine Reports.rejectComment ?_ _
    split
    · exact reports_of_nil rfl
    · exact List.forall_mem_singleton.mpr (.notChosen allowed _)

theorem reports_socketGroup : Reports keyword .socketGroup (socketGroup keyword cursor).1 := by
  refine reports_withEquality fun operator next => ?_
  dsimp only
  split
  · exact List.forall_mem_singleton.mpr (.badFormat (madeOf_literal (by decide)) _ _)
  · refine Reports.rejectComment ?_ _
    split
    · exact reports_of_nil rfl
    · exact List.forall_mem_singleton.mpr (.noSockets _)

theorem reports_catalogList (kind : NameKind) (names : NameSet) :
    Reports keyword (.catalogList kind) (catalogList keyword names cursor).1 := by
  refine reports_withEquality fun operator next => Reports.rejectComment ?_ _
  have hwords : ∀ (values : List (Token Value)) (words : List (Token Text)),
      Reports keyword (.catalogList kind)
        { operator, values, diagnostics := words.map fun w => wrongWord keyword w.range } := by
    intro values words d hd
    obtain ⟨word, -, rfl⟩ := List.mem_map.mp hd
    exact .wrongWord word.range
  split
  · exact (hwords _ _).report (.noNames kind _)
  · exact hwords _ _

/-- Nothing else is reported for the arguments of a rule. -/
theorem reports_arguments (catalog : Catalog) (rule : ArgumentRule) :
    Reports keyword rule (arguments catalog keyword rule cursor).1 := by
  cases rule with
  | range bounds allowed => exact reports_range keyword cursor bounds allowed
  | boolean => exact reports_boolean keyword cursor
  | oneOf allowed => exact reports_oneOf keyword cursor allowed
  | operatorNumber allowed => exact reports_operatorNumber keyword cursor allowed
  | socketGroup => exact reports_socketGroup keyword cursor
  | catalogList kind => exact reports_catalogList keyword cursor kind (catalog.names kind)
  | color => exact reports_color keyword cursor
  | alertSound => exact reports_alertSound keyword cursor

theorem isWorded_leftoverText (line : Text) (span : Span) : (leftoverText line span).IsWorded :=
  ⟨madeOf_literal (by decide), fun _ h => Option.some.inj h ▸ madeOf_literal (by decide),
    fun _ h => Option.some.inj h ▸ rfl⟩

theorem isWorded_ignoredText (line : Text) (span : Span) :
    (ignoredText keyword line span).IsWorded := by
  refine ⟨madeOf_around (by decide) keyword.readable_name (by decide), fun text htext => ?_,
    fun _ hfix => Option.some.inj hfix ▸ rfl⟩
  obtain rfl := Option.some.inj htext
  exact madeOf_append.mpr ⟨madeOf_literal (by decide), madeOf_literal (by decide)⟩

end Rule

/-! ## Lines -/

namespace Classifier

variable (c : Classifier)

theorem isWorded_unreadableKeyword (span : Span) : (unreadableKeyword span).IsWorded :=
  ⟨madeOf_literal (by decide), nofun, nofun⟩

theorem isWorded_unknownKeyword (word : Token Text) : (unknownKeyword word).IsWorded := by
  refine ⟨madeOf_literal (by decide), fun text htext => ?_, nofun⟩
  obtain ⟨keyword, -, rfl⟩ := Option.map_eq_some_iff.mp htext
  exact madeOf_around (by decide) keyword.readable_name (by decide)

theorem isWorded_of_mem_blockLine (keyword : Token Keyword) (cursor : Cursor) :
    ∀ d ∈ (c.blockLine keyword cursor).diagnostics, d.IsWorded := by
  unfold blockLine Rule.block
  rcases cursor.comment with ⟨_ | comment, next⟩
  · dsimp only
    split
    · exact List.forall_mem_nil _
    · exact List.forall_mem_singleton.mpr (Rule.isWorded_ignoredText _ _ _)
  · exact List.forall_mem_nil _

theorem isWorded_of_mem_ruleLine {keyword : Token Keyword} {category : Category}
    {rule : ArgumentRule} (hkind : keyword.value.kind = .rule category rule) (cursor : Cursor) :
    ∀ d ∈ (c.ruleLine keyword category rule cursor).diagnostics, d.IsWorded := by
  unfold ruleLine Rule.read
  have hreports := Rule.reports_arguments keyword.value cursor c.catalog rule
  revert hreports
  rcases Rule.arguments c.catalog keyword.value rule cursor with ⟨outcome, next⟩
  intro hreports
  have houtcome : ∀ d ∈ outcome.diagnostics, d.IsWorded := fun d hd =>
    (hreports d hd).isWorded hkind
  -- Behind the arguments, only leftover text is reported.
  dsimp only
  split
  · exact houtcome
  · exact List.forall_mem_append.mpr
      ⟨houtcome, List.forall_mem_singleton.mpr (Rule.isWorded_leftoverText _ _)⟩

/-- The problems of a line have readable wording. -/
theorem isWorded_of_mem_classify (start : Cursor) :
    ∀ d ∈ (c.classify start).diagnostics, d.IsWorded := by
  unfold classify
  split
  · exact List.forall_mem_nil _
  split
  · exact List.forall_mem_nil _
  split
  · exact List.forall_mem_singleton.mpr (isWorded_unreadableKeyword _)
  · split
    · exact List.forall_mem_singleton.mpr (isWorded_unknownKeyword _)
    · split
      · exact c.isWorded_of_mem_blockLine _ _
      · next hkind => exact c.isWorded_of_mem_ruleLine hkind _

/-- The same, at a line of a file. -/
theorem isWorded_of_parse {c : Classifier} {location : Location} {line : Text}
    {result : LineResult Range} (h : c.parse location line = .ok result) :
    ∀ d ∈ result.diagnostics, d.IsWorded := by
  unfold parse at h
  rcases hstart : Cursor.ofText line with e | start
  · rw [hstart] at h
    cases h
  · rw [hstart] at h
    obtain rfl := Except.ok.inj h
    -- The location is put on the problems without a word being changed.
    intro d hd
    obtain ⟨placed, hplaced, rfl⟩ := List.mem_map.mp hd
    exact (c.isWorded_of_mem_classify start placed hplaced).map _ _

end Classifier

end ItemFilter
