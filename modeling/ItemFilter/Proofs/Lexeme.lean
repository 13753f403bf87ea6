import ItemFilter.Proofs.Trim

/-!
# Lexemes

How the tokens of each class are written, independently of how the cursor finds them. A matcher
reads a class if, in front of a boundary, it takes exactly the lexemes of the class. The condition
on the boundary is what makes a token local: what follows it may be exchanged for anything else
that a token may end in front of.

## Main definitions

* `Spelling`: which texts denote which values
* `Spelling.word`, `Spelling.number`, `Spelling.boolean`, `Spelling.operator`, `Spelling.string`,
  `Spelling.hex`, `Spelling.comment`: how the tokens of each class are written
* `Spelling.numeral`: the integer a numeral denotes, however large
* `Matcher.Reads`: a matcher that takes exactly the lexemes of a class

## Main results

* `matchWord_reads`, `matchNumber_reads`, `matchBoolean_reads`, `matchOperator_reads`,
  `matchString_reads`, `matchHex_reads`: each matcher reads its class
-/

namespace ItemFilter

open Text Cursor

/-- How the values of a class of tokens are written: which texts denote which values. -/
abbrev Spelling (α : Type) := Text → α → Prop

namespace Spelling

/-- A word is a run of letters. -/
def word : Spelling Text := fun lexeme value =>
  lexeme ≠ [] ∧ (∀ c ∈ lexeme, isWordChar c = true) ∧ value = lexeme

/-- The integer denoted by decimal digits, possibly after a minus sign. -/
def numeral : Spelling Int := fun lexeme n =>
  ∃ digits : Text, digits ≠ [] ∧ (∀ c ∈ digits, c.isDigit = true) ∧
    (lexeme = digits ∧ n = decimal digits ∨ lexeme = '-' :: digits ∧ n = -decimal digits)

/-- A number is a numeral; its value is the nearest 64-bit integer. -/
def number : Spelling Int := fun lexeme value =>
  ∃ n, numeral lexeme n ∧ value = clampNumber n

/-- The name of a truth value in lower case. -/
def truthName : Bool → Text
  | true => "true".toList
  | false => "false".toList

/-- A truth value is its name in any case, bare or between double quotes. -/
def boolean : Spelling Bool := fun lexeme value =>
  ∃ name, sameIgnoringCase name (truthName value) = true ∧
    (lexeme = name ∨ lexeme = '"' :: (name ++ ['"']))

/-- An operator is its spelling. -/
def operator : Spelling Operator := fun lexeme value =>
  lexeme = value.spelling

/-- A string is any text without double quotes between two of them, or a run of characters that do
not end a bare string. -/
def string : Spelling Text := fun lexeme value =>
  ('"' ∉ value ∧ lexeme = '"' :: (value ++ ['"'])) ∨
    (lexeme ≠ [] ∧ (∀ c ∈ lexeme, endsBareString c = false) ∧ value = lexeme)

/-- A hexadecimal colour is a `#` and six or eight digits, and stands for itself. -/
def hex : Spelling Text := fun lexeme value =>
  ∃ digits : Text, lexeme = '#' :: digits ∧ (∀ c ∈ digits, isHexDigit c = true) ∧
    (digits.length = 6 ∨ digits.length = 8) ∧ value = lexeme

/-- A comment is a `#` and anything that does not end with white space, and stands for itself. -/
def comment : Spelling Text := fun lexeme value =>
  lexeme.head? = some '#' ∧ trimEnd lexeme = lexeme ∧ value = lexeme

end Spelling

variable {α : Type}

/-- A matcher reads a class of tokens if it takes the lexemes of the class, and nothing else, in
front of a boundary. -/
structure Matcher.Reads (m : Matcher α) (spelling : Spelling α) : Prop where
  /-- A lexeme does not start with white space. -/
  flush : ∀ {lexeme value}, spelling lexeme value → IsFlush lexeme
  /-- Every lexeme is taken. -/
  complete : ∀ {lexeme value after}, spelling lexeme value → atBoundary after = true →
    m (lexeme ++ after) = some (lexeme.length, value)
  /-- Only lexemes are taken. -/
  sound : ∀ {text n value}, m text = some (n, value) → text.take n ≠ [] →
    atBoundary (text.drop n) = true → spelling (text.take n) value

/-! ## Classes of characters -/

/-- The visible characters of ASCII are no white space. -/
theorem isBlank_of_visible {c : Char} (h₁ : 33 ≤ c.toNat) (h₂ : c.toNat ≤ 126) :
    isBlank c = false := by
  simp only [isBlank, Bool.or_eq_false_iff, Bool.and_eq_false_iff, decide_eq_false_iff_not,
    beq_eq_false_iff_ne, ne_eq]
  omega

theorem isBlank_of_isDigit {c : Char} (h : c.isDigit = true) : isBlank c = false := by
  simp only [Char.isDigit, ge_iff_le, UInt32.le_iff_toNat_le, Bool.and_eq_true,
    decide_eq_true_eq] at h
  exact isBlank_of_visible (Nat.le_trans (by decide) h.1) (Nat.le_trans h.2 (by decide))

theorem isBlank_of_isWordChar {c : Char} (h : isWordChar c = true) : isBlank c = false := by
  delta isWordChar Char.isAlpha Char.isUpper Char.isLower at h
  simp only [ge_iff_le, UInt32.le_iff_toNat_le, Bool.or_eq_true, Bool.and_eq_true,
    decide_eq_true_eq, beq_iff_eq] at h
  rcases h with (⟨h₁, h₂⟩ | ⟨h₁, h₂⟩) | rfl
  · exact isBlank_of_visible (Nat.le_trans (by decide) h₁) (Nat.le_trans h₂ (by decide))
  · exact isBlank_of_visible (Nat.le_trans (by decide) h₁) (Nat.le_trans h₂ (by decide))
  · decide

theorem isBlank_of_isHexDigit {c : Char} (h : isHexDigit c = true) : isBlank c = false := by
  simp only [isHexDigit, Bool.or_eq_true, Bool.and_eq_true, decide_eq_true_eq, Char.le_def,
    UInt32.le_iff_toNat_le] at h
  rcases h with (h | ⟨h₁, h₂⟩) | ⟨h₁, h₂⟩
  · exact isBlank_of_isDigit h
  · exact isBlank_of_visible (Nat.le_trans (by decide) h₁) (Nat.le_trans h₂ (by decide))
  · exact isBlank_of_visible (Nat.le_trans (by decide) h₁) (Nat.le_trans h₂ (by decide))

theorem isBlank_of_not_endsBareString {c : Char} (h : endsBareString c = false) :
    isBlank c = false := by
  simp only [endsBareString, Bool.or_eq_false_iff] at h
  exact h.1.1.1.1.1

/-- White space has no other case. -/
theorem isBlank_of_toLower {c d : Char} (h : c.toLower = d) (hd : isBlank d = false) :
    isBlank c = false := by
  -- Only the capital letters of ASCII change, and none of them is white space.
  by_cases hc : 65 ≤ c.toNat ∧ c.toNat ≤ 90
  · exact isBlank_of_visible (by omega) (by omega)
  · have hsame : c.toLower = c := dif_neg fun hupper => hc ⟨hupper.1, hupper.2⟩
    rwa [← hsame, h]

/-- A run of characters of a class ends in front of a boundary, if white space is not in the
class. -/
theorem takeWhile_append_boundary {p : Char → Bool} (hp : ∀ c, p c = true → isBlank c = false)
    {run after : Text} (hrun : ∀ c ∈ run, p c = true) (hb : atBoundary after = true) :
    (run ++ after).takeWhile p = run := by
  rw [List.takeWhile_append_of_pos hrun]
  cases after with
  | nil => simp
  | cons c after =>
    -- what follows the run is white space, which is not in the class
    have hc : p c = false := by
      by_contra hpc
      have hblank : isBlank c = true := hb
      rw [hp c (by simpa using hpc)] at hblank
      cases hblank
    simp [hc]

/-- As many characters as a run has are the run. -/
theorem take_length_takeWhile (p : Char → Bool) (text : Text) :
    text.take (text.takeWhile p).length = text.takeWhile p :=
  (List.prefix_iff_eq_take.mp (List.takeWhile_prefix p)).symm

theorem isFlush_of_forall {p : Char → Bool} (hp : ∀ c, p c = true → isBlank c = false)
    {run : Text} (hne : run ≠ []) (hrun : ∀ c ∈ run, p c = true) : IsFlush run := by
  obtain ⟨c, rest, rfl⟩ := List.exists_cons_of_ne_nil hne
  exact ⟨c, rest, rfl, hp c (hrun c (List.mem_cons_self ..))⟩

/-! ## Words, numbers and operators -/

theorem matchWord_reads : Matcher.Reads matchWord Spelling.word where
  flush := fun ⟨hne, hall, _⟩ => isFlush_of_forall (fun _ => isBlank_of_isWordChar) hne hall
  complete := by
    rintro lexeme value after ⟨-, hall, rfl⟩ hb
    simp only [matchWord, takeWhile_append_boundary (fun _ => isBlank_of_isWordChar) hall hb]
  sound := by
    rintro text n value h hne -
    simp only [matchWord, Option.some.injEq, Prod.mk.injEq] at h
    obtain ⟨rfl, rfl⟩ := h
    rw [take_length_takeWhile] at hne ⊢
    exact ⟨hne, fun c hc => List.mem_takeWhile_imp hc, rfl⟩

theorem Spelling.numeral_flush {lexeme : Text} {n : Int} (h : Spelling.numeral lexeme n) :
    IsFlush lexeme := by
  obtain ⟨digits, hne, hall, ⟨rfl, -⟩ | ⟨rfl, -⟩⟩ := h
  · exact isFlush_of_forall (fun _ => isBlank_of_isDigit) hne hall
  · exact isFlush_cons.mpr (by decide)

/-- A number that is no extreme of the 64-bit integers is the integer its numeral denotes. -/
theorem Spelling.numeral_of_number {lexeme : Text} {n : Int} (h : Spelling.number lexeme n)
    (hlow : -9223372036854775808 < n) (hhigh : n < 9223372036854775807) :
    Spelling.numeral lexeme n := by
  obtain ⟨m, hnumeral, rfl⟩ := h
  have hsame : clampNumber m = m := by
    rw [clampNumber] at hlow hhigh ⊢
    omega
  rwa [hsame]

/-- Behind a minus sign, a number is read digit by digit. -/
theorem matchNumber_minus (body : Text) :
    matchNumber ('-' :: body) =
      if (body.takeWhile Char.isDigit).isEmpty then none
      else some (1 + (body.takeWhile Char.isDigit).length,
        clampNumber (-decimal (body.takeWhile Char.isDigit))) :=
  rfl

/-- Without a minus sign, a number is read digit by digit. -/
theorem matchNumber_unsigned {text : Text} (h : ∀ body, text ≠ '-' :: body) :
    matchNumber text =
      if (text.takeWhile Char.isDigit).isEmpty then none
      else some ((text.takeWhile Char.isDigit).length,
        clampNumber (decimal (text.takeWhile Char.isDigit))) := by
  unfold matchNumber
  split
  next sign body hsplit =>
  split at hsplit
  · next rest => exact absurd rfl (h rest)
  · obtain ⟨rfl, rfl⟩ := Prod.mk.inj hsplit
    simp

theorem matchNumber_reads : Matcher.Reads matchNumber Spelling.number where
  flush := fun ⟨_, h, _⟩ => Spelling.numeral_flush h
  complete := by
    rintro lexeme value after ⟨n, ⟨digits, hne, hall, ⟨rfl, rfl⟩ | ⟨rfl, rfl⟩⟩, rfl⟩ hb
    · have htake := takeWhile_append_boundary (fun _ => isBlank_of_isDigit) hall hb
      rw [matchNumber_unsigned, htake, if_neg (by simpa using hne)]
      -- a run of digits does not start with a minus sign
      rintro body hbody
      obtain ⟨c, rest, rfl⟩ := List.exists_cons_of_ne_nil hne
      obtain ⟨rfl, -⟩ := List.cons.inj hbody
      exact absurd (hall '-' (List.mem_cons_self ..)) (by decide)
    · have htake := takeWhile_append_boundary (fun _ => isBlank_of_isDigit) hall hb
      rw [List.cons_append, matchNumber_minus, htake, if_neg (by simpa using hne),
        List.length_cons, Nat.add_comm]
  sound := by
    rintro text n value h - -
    have hdigits : ∀ body : Text, ∀ c ∈ body.takeWhile Char.isDigit, c.isDigit = true :=
      fun _ _ hc => List.mem_takeWhile_imp hc
    -- A minus sign is part of the lexeme, and the digits are counted behind it.
    by_cases hminus : ∃ body, text = '-' :: body
    · obtain ⟨body, rfl⟩ := hminus
      rw [matchNumber_minus] at h
      split at h
      · cases h
      · next hne =>
        obtain ⟨rfl, rfl⟩ := Prod.mk.inj (Option.some.inj h)
        rw [Nat.add_comm, List.take_succ_cons, take_length_takeWhile]
        exact ⟨_, ⟨_, by simpa using hne, hdigits body, Or.inr ⟨rfl, rfl⟩⟩, rfl⟩
    · rw [matchNumber_unsigned fun body hbody => hminus ⟨body, hbody⟩] at h
      split at h
      · cases h
      · next hne =>
        obtain ⟨rfl, rfl⟩ := Prod.mk.inj (Option.some.inj h)
        rw [take_length_takeWhile]
        exact ⟨_, ⟨_, by simpa using hne, hdigits text, Or.inl ⟨rfl, rfl⟩⟩, rfl⟩

/-- No operator that stands in front of a boundary is the start of a longer one. -/
theorem matchOperator_reads : Matcher.Reads matchOperator Spelling.operator where
  flush := by
    rintro lexeme op rfl
    cases op <;> exact isFlush_cons.mpr (by decide)
  complete := by
    rintro lexeme op after rfl hb
    -- The longer operators are tried first, so `<` must not be followed by `=`.
    have heq : ['='].isPrefixOf after = false := by
      cases after with
      | nil => rfl
      | cons c rest =>
        have hc : isBlank c = true := hb
        have hne : ('=' == c) = false := beq_eq_false_iff_ne.mpr (by
          rintro rfl
          exact absurd hc (by decide))
        simp [List.isPrefixOf, hne]
    cases op <;> simp [matchOperator, Operator.all, Operator.spelling, List.isPrefixOf, heq]
  sound := by
    rintro text n op h - -
    obtain ⟨found, hfind, hpair⟩ := Option.map_eq_some_iff.mp h
    obtain ⟨rfl, rfl⟩ := Prod.mk.inj hpair
    have hpre : found.spelling <+: text :=
      List.isPrefixOf_iff_prefix.mp (by simpa using List.find?_some hfind)
    exact (List.prefix_iff_eq_take.mp hpre).symm

/-! ## Truth values -/

theorem sameIgnoringCase_length {left right : Text} (h : sameIgnoringCase left right = true) :
    left.length = right.length := by
  have hmap := congrArg List.length (beq_iff_eq.mp h)
  simpa using hmap

/-- The name of a truth value, in any case, starts with one of two letters. -/
theorem truthName_head {name : Text} {value : Bool}
    (h : sameIgnoringCase name (Spelling.truthName value) = true) :
    ∃ c rest, name = c :: rest ∧ (c.toLower = 't' ∨ c.toLower = 'f') := by
  have hmap : name.map Char.toLower = (Spelling.truthName value).map Char.toLower := beq_iff_eq.mp h
  cases name with
  | nil => cases value <;> simp [Spelling.truthName] at hmap
  | cons c rest =>
    refine ⟨c, rest, rfl, ?_⟩
    cases value with
    | false => exact Or.inr (List.cons.inj hmap).1
    | true => exact Or.inl (List.cons.inj hmap).1

/-- The name of a truth value is found at the start of a text, whatever follows. -/
theorem matchTruth_append {name : Text} {value : Bool}
    (h : sameIgnoringCase name (Spelling.truthName value) = true) (after : Text) :
    matchTruth (name ++ after) = some (name.length, value) := by
  have hlength := sameIgnoringCase_length h
  cases value with
  | true =>
    have hfour : name.length = 4 := hlength
    rw [matchTruth, List.take_left' hfour, hfour]
    exact if_pos h
  | false =>
    have hfive : name.length = 5 := hlength
    have hmap : name.map Char.toLower = "false".toList.map Char.toLower := beq_iff_eq.mp h
    -- four letters of the longer name are not the shorter one
    have hnot : sameIgnoringCase ((name ++ after).take 4) "true".toList = false := by
      rw [List.take_append_of_le_length (by omega), sameIgnoringCase, List.map_take, hmap]
      decide
    rw [matchTruth, hnot, List.take_left' hfive, if_neg (by simp), hfive]
    exact if_pos h

theorem matchTruth_sound {text : Text} {n : Nat} {value : Bool}
    (h : matchTruth text = some (n, value)) :
    sameIgnoringCase (text.take n) (Spelling.truthName value) = true := by
  unfold matchTruth at h
  split at h
  · next htrue =>
    obtain ⟨rfl, rfl⟩ := Prod.mk.inj (Option.some.inj h)
    exact htrue
  · split at h
    · next hfalse =>
      obtain ⟨rfl, rfl⟩ := Prod.mk.inj (Option.some.inj h)
      exact hfalse
    · cases h

theorem matchBoolean_reads : Matcher.Reads matchBoolean Spelling.boolean where
  flush := by
    rintro lexeme value ⟨name, h, rfl | rfl⟩
    · obtain ⟨c, rest, rfl, hc | hc⟩ := truthName_head h
      · exact isFlush_cons.mpr (isBlank_of_toLower hc (by decide))
      · exact isFlush_cons.mpr (isBlank_of_toLower hc (by decide))
    · exact isFlush_cons.mpr (by decide)
  complete := by
    rintro lexeme value after ⟨name, h, rfl | rfl⟩ -
    · obtain ⟨c, rest, hname, hc⟩ := truthName_head h
      have htruth := matchTruth_append h after
      rw [hname, List.cons_append] at htruth ⊢
      rw [matchBoolean, htruth]
      -- a name is not in quotes, as no quote becomes one of its letters
      rintro text heq
      obtain ⟨rfl, -⟩ := List.cons.inj heq
      exact absurd hc (by decide)
    · have htruth := matchTruth_append h ('"' :: after)
      simp [matchBoolean, htruth]
  sound := by
    rintro text n value h - -
    unfold matchBoolean at h
    split at h
    · next body =>
      split at h
      · next k truth htruth =>
        split at h
        · next hquote =>
          obtain ⟨rfl, rfl⟩ := Prod.mk.inj (Option.some.inj h)
          refine ⟨_, matchTruth_sound htruth, Or.inr ?_⟩
          rw [List.take_succ_cons, List.take_add_one, hquote]
          rfl
        · cases h
      · cases h
    · exact ⟨_, matchTruth_sound h, Or.inl rfl⟩

/-! ## Strings and colours -/

/-- A text with a quote in it, up to the quote. -/
theorem takeWhile_quote {text : Text}
    (h : (text.takeWhile (· != '"')).length < text.length) :
    text.take ((text.takeWhile (· != '"')).length + 1) = text.takeWhile (· != '"') ++ ['"'] ∧
      '"' ∉ text.takeWhile (· != '"') := by
  refine ⟨?_, fun hmem => by simpa using List.mem_takeWhile_imp hmem⟩
  -- The text is its part in front of the quote, and a rest that starts with the quote.
  have hsplit := List.takeWhile_append_dropWhile (p := (· != '"')) (l := text)
  cases hdrop : text.dropWhile (· != '"') with
  | nil =>
    rw [hdrop, List.append_nil] at hsplit
    rw [hsplit] at h
    exact absurd h (Nat.lt_irrefl _)
  | cons c rest =>
    have hc := List.head_dropWhile_not (· != '"') (l := text) (by simp [hdrop])
    simp only [hdrop, List.head_cons, bne_eq_false_iff_eq] at hc
    subst hc
    have htake : ∀ run : Text, (run ++ '"' :: rest).take (run.length + 1) = run ++ ['"'] :=
      fun run => by rw [List.take_length_add_append, List.take_succ_cons, List.take_zero]
    rw [hdrop] at hsplit
    have h' := htake (text.takeWhile (· != '"'))
    rwa [hsplit] at h'

theorem matchString_reads : Matcher.Reads matchString Spelling.string where
  flush := by
    rintro lexeme value (⟨-, rfl⟩ | ⟨hne, hall, -⟩)
    · exact isFlush_cons.mpr (by decide)
    · obtain ⟨c, rest, rfl⟩ := List.exists_cons_of_ne_nil hne
      exact isFlush_cons.mpr (isBlank_of_not_endsBareString (hall c (List.mem_cons_self ..)))
  complete := by
    rintro lexeme value after (⟨hquote, rfl⟩ | ⟨hne, hall, rfl⟩) hb
    -- Within quotes the value goes up to the closing quote, and to the boundary otherwise.
    · have hbody : (value ++ '"' :: after).takeWhile (· != '"') = value := by
        rw [List.takeWhile_append_of_pos fun c hc =>
          bne_iff_ne.mpr (ne_of_mem_of_not_mem hc hquote)]
        simp
      simp [matchString, hbody]
    · obtain ⟨c, rest, rfl⟩ := List.exists_cons_of_ne_nil hne
      have hc : c ≠ '"' := by
        rintro rfl
        exact absurd (hall '"' (List.mem_cons_self ..)) (by decide)
      have hbody := takeWhile_append_boundary (p := fun c => !endsBareString c)
        (fun c hc => isBlank_of_not_endsBareString (by simpa using hc))
        (fun c hc => by simpa using hall c hc) hb
      rw [List.cons_append] at hbody ⊢
      rw [matchString, hbody]
      rintro text heq
      exact hc (List.cons.inj heq).1
  sound := by
    rintro text n value h hne -
    unfold matchString at h
    split at h
    · next body =>
      dsimp only at h
      split at h
      · next hlength =>
        simp only [Option.some.injEq, Prod.mk.injEq] at h
        obtain ⟨rfl, rfl⟩ := h
        obtain ⟨hbody, hquote⟩ := takeWhile_quote hlength
        rw [List.take_succ_cons, hbody]
        exact Or.inl ⟨hquote, rfl⟩
      · cases h
    · simp only [Option.some.injEq, Prod.mk.injEq] at h
      obtain ⟨rfl, rfl⟩ := h
      rw [take_length_takeWhile] at hne ⊢
      exact Or.inr ⟨hne, fun c hc => by simpa using List.mem_takeWhile_imp hc, rfl⟩

theorem matchHex_reads : Matcher.Reads matchHex Spelling.hex where
  flush := by
    rintro lexeme value ⟨digits, rfl, -⟩
    exact isFlush_cons.mpr (by decide)
  complete := by
    rintro lexeme value after ⟨digits, rfl, hall, hlength, rfl⟩ hb
    have hdigits := takeWhile_append_boundary (fun _ => isBlank_of_isHexDigit) hall hb
    simp [matchHex, hdigits, hlength]
  sound := by
    rintro text n value h - -
    unfold matchHex at h
    split at h
    · next body =>
      dsimp only at h
      split at h
      · next hlength =>
        simp only [Option.some.injEq, Prod.mk.injEq] at h
        obtain ⟨rfl, rfl⟩ := h
        rw [List.take_succ_cons, take_length_takeWhile]
        exact ⟨_, rfl, fun c hc => List.mem_takeWhile_imp hc, hlength, rfl⟩
      · cases h
    · cases h

end ItemFilter
