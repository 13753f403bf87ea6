import ItemFilter.Proofs.HexExpansion

/-!
# Pairs of hexadecimal digits

The channels of a colour are its digits taken two by two and read in base 16. The reader of a pair
takes a plus sign in place of the first digit, so there are tokens that are expanded although no
colour is written that way. What is expanded otherwise, and what comes of it, is as it should be:
the channels stand in the expansion as decimal numerals, and can be read off it again.

## Main definitions

* `Text.IsCanonical`: a decimal numeral without leading zeros
* `HexColor.IsDigit`: the value of a hexadecimal digit, in any case
* `HexColor.Pairs`: the channels that a run of pairs stands for
* `HexColor.digitPair`: the two digits of a channel

## Main results

* `Text.isCanonical_toDigits`: numbers are written without leading zeros
* `HexColor.channels?_eq_some_iff`: the channels that are read are those of the pairs
* `HexColor.Pairs.isHexDigit`: without a plus sign, pairs consist of hexadecimal digits
* `HexColor.splitOn_decimalText`: the numerals of an expansion
* `HexColor.ofToken?_expands`: which tokens are expanded, and what to
-/

namespace ItemFilter

open Text Cursor

/-! ## Decimal numerals -/

namespace Text

/-- A decimal numeral without leading zeros. -/
structure IsCanonical (numeral : Text) : Prop where
  /-- There are digits. -/
  ne_nil : numeral ≠ []
  /-- There is nothing else. -/
  isDigit : ∀ c ∈ numeral, c.isDigit = true
  /-- Only the numeral of zero starts with a zero. -/
  head_zero : numeral.head? = some '0' → numeral = ['0']

theorem decimal_toDigits (n : Nat) : decimal (Nat.toDigits 10 n) = n :=
  Nat.ofDigitChars_ten_toDigits

/-- Numbers are written without leading zeros. -/
theorem isCanonical_toDigits (n : Nat) : IsCanonical (Nat.toDigits 10 n) where
  ne_nil := Nat.toDigits_ne_nil
  isDigit := fun c hc => Nat.isDigit_of_mem_toDigits (by decide) (by decide) hc
  head_zero := by
    -- Induction on the number, its last digit split off.
    induction n using Nat.strongRecOn with
    | ind n ih =>
      intro hhead
      rcases Nat.lt_or_ge n 10 with hn | hn
      · rw [Nat.toDigits_of_lt_base hn] at hhead ⊢
        rw [Option.some.inj hhead]
      · rw [Nat.toDigits_of_base_le (by decide) hn,
          List.head?_append_of_ne_nil _ Nat.toDigits_ne_nil] at hhead
        -- The digits in front of the last one are not those of zero.
        have hzero : n / 10 = decimal ['0'] := by
          rw [← ih (n / 10) (by omega) hhead, decimal_toDigits]
        have hvalue : decimal ['0'] = 0 := rfl
        omega

end Text

namespace HexColor

/-! ## Digits -/

/-- The value of a hexadecimal digit, in any case. -/
def IsDigit (c : Char) (d : Nat) : Prop :=
  d < 16 ∧ c.toLower = Nat.digitChar d

/-- A character of ASCII is a digit or not: there are few enough to look at all of them. -/
theorem digit?_ofNat :
    ∀ n < 128, ∀ d < 16,
      digit? (Char.ofNat n) = some d ↔ (Char.ofNat n).toLower = Nat.digitChar d := by
  decide +kernel

theorem isHexDigit_of_digit? {c : Char} {d : Nat} (h : digit? c = some d) :
    isHexDigit c = true := by
  unfold digit? at h
  simp only [isHexDigit, Bool.or_eq_true]
  split at h
  · next hdigit => exact Or.inl (Or.inl hdigit)
  · split at h
    · next hlower => exact Or.inl (Or.inr hlower)
    · split at h
      · next hupper => exact Or.inr hupper
      · cases h

theorem lt_of_isHexDigit {c : Char} (h : isHexDigit c = true) : c.toNat < 128 := by
  have hsize : c.val ≤ 127 := Char.utf8Size_eq_one_iff.mp (digit?_of_isHexDigit h).2.1
  exact Nat.lt_succ_of_le (UInt32.le_iff_toNat_le.mp hsize)

/-- Only characters of ASCII have a digit for their lower-case form. -/
theorem IsDigit.lt {c : Char} {d : Nat} (h : IsDigit c d) : c.toNat < 128 := by
  by_contra hc
  have hsame : c.toLower = c := dif_neg fun hupper => by
    have hupper' : c.toNat ≤ 90 := hupper.2
    omega
  have hdigits : ∀ d < 16, (Nat.digitChar d).toNat < 128 := by decide
  have hlt := hdigits d h.1
  rw [← h.2, hsame] at hlt
  exact hc hlt

theorem digit?_eq_some_iff {c : Char} {d : Nat} : digit? c = some d ↔ IsDigit c d := by
  have hascii : c.toNat < 128 → d < 16 → (digit? c = some d ↔ c.toLower = Nat.digitChar d) := by
    intro hc hd
    have h := digit?_ofNat c.toNat hc d hd
    rwa [Char.ofNat_toNat] at h
  constructor
  · intro h
    have hhex := isHexDigit_of_digit? h
    obtain ⟨⟨e, he, hvalue⟩, -⟩ := digit?_of_isHexDigit hhex
    obtain rfl : e = d := Option.some.inj (hvalue.symm.trans h)
    exact ⟨he, (hascii (lt_of_isHexDigit hhex) he).mp h⟩
  · intro h
    exact (hascii h.lt h.1).mpr h.2

theorem isHexDigit_iff {c : Char} : isHexDigit c = true ↔ ∃ d, IsDigit c d := by
  constructor
  · intro h
    obtain ⟨⟨d, -, hd⟩, -⟩ := digit?_of_isHexDigit h
    exact ⟨d, digit?_eq_some_iff.mp hd⟩
  · rintro ⟨d, hd⟩
    exact isHexDigit_of_digit? (digit?_eq_some_iff.mpr hd)

/-! ## Pairs -/

/-- The channels that a run of pairs stands for. A pair is two digits in base 16, or a plus sign and
a digit. -/
inductive Pairs : Text → List Nat → Prop
  /-- There are no pairs. -/
  | nil : Pairs [] []
  /-- Two digits come first. -/
  | digits {high low : Char} {h l : Nat} {rest : Text} {channels : List Nat}
      (hhigh : IsDigit high h) (hlow : IsDigit low l) (hrest : Pairs rest channels) :
      Pairs (high :: low :: rest) ((16 * h + l) :: channels)
  /-- A plus sign and a digit come first. -/
  | plus {low : Char} {l : Nat} {rest : Text} {channels : List Nat}
      (hlow : IsDigit low l) (hrest : Pairs rest channels) :
      Pairs ('+' :: low :: rest) (l :: channels)

theorem not_isDigit_plus (d : Nat) : ¬ IsDigit '+' d := by
  rw [← digit?_eq_some_iff]
  nofun

theorem pair?_eq_some_iff {high low : Char} {channel : Nat} :
    pair? high low = some channel ↔
      (∃ h l, IsDigit high h ∧ IsDigit low l ∧ channel = 16 * h + l) ∨
        high = '+' ∧ IsDigit low channel := by
  unfold pair?
  split
  · next hplus =>
    subst hplus
    simp [digit?_eq_some_iff, not_isDigit_plus]
  · next hplus =>
    simp only [Option.bind_eq_some_iff, Option.map_eq_some_iff, digit?_eq_some_iff, hplus,
      false_and, or_false]
    constructor
    · rintro ⟨h, hhigh, l, hlow, rfl⟩
      exact ⟨h, l, hhigh, hlow, rfl⟩
    · rintro ⟨h, l, hhigh, hlow, rfl⟩
      exact ⟨h, hhigh, l, hlow, rfl⟩

/-- The channels that are read are those of the pairs. -/
theorem channels?_eq_some_iff {run : Text} {channels : List Nat} :
    channels? run = some channels ↔ Pairs run channels := by
  -- The recursion of `channels?`, pair by pair.
  fun_induction channels? run generalizing channels with
  | case1 =>
    constructor
    · intro h
      obtain rfl := Option.some.inj h
      exact .nil
    · rintro ⟨⟩
      rfl
  | case2 c =>
    constructor
    · nofun
    · nofun
  | case3 high low rest ih =>
    simp only [Option.bind_eq_some_iff, Option.map_eq_some_iff, pair?_eq_some_iff]
    constructor
    · rintro ⟨channel, ⟨h, l, hhigh, hlow, rfl⟩ | ⟨rfl, hlow⟩, more, hmore, rfl⟩
      · exact .digits hhigh hlow (ih.mp hmore)
      · exact .plus hlow (ih.mp hmore)
    · intro h
      cases h with
      | digits hhigh hlow hrest => exact ⟨_, Or.inl ⟨_, _, hhigh, hlow, rfl⟩, _, ih.mpr hrest, rfl⟩
      | plus hlow hrest => exact ⟨_, Or.inr ⟨rfl, hlow⟩, _, ih.mpr hrest, rfl⟩

/-- Pairs consist of characters of one byte, two for each channel. -/
theorem Pairs.byteLength_eq {run : Text} {channels : List Nat} (h : Pairs run channels) :
    byteLength run = run.length ∧ run.length = 2 * channels.length := by
  have hsize : ∀ {c : Char} {d : Nat}, IsDigit c d → c.utf8Size = 1 := fun hc =>
    utf8Size_of_le (Nat.le_of_lt_succ hc.lt)
  have hplus : '+'.utf8Size = 1 := rfl
  induction h with
  | nil => exact ⟨rfl, rfl⟩
  | digits hhigh hlow _ ih =>
    have hone := hsize hhigh
    have hone' := hsize hlow
    simp only [byteLength_cons, List.length_cons]
    omega
  | plus hlow _ ih =>
    have hone := hsize hlow
    simp only [byteLength_cons, List.length_cons]
    omega

/-- A channel is one byte. -/
theorem Pairs.lt {run : Text} {channels : List Nat} (h : Pairs run channels) :
    ∀ channel ∈ channels, channel < 256 := by
  induction h with
  | nil => exact List.forall_mem_nil _
  | digits hhigh hlow _ ih =>
    have hhigh' := hhigh.1
    have hlow' := hlow.1
    exact List.forall_mem_cons.mpr ⟨by omega, ih⟩
  | plus hlow _ ih =>
    have hlow' := hlow.1
    exact List.forall_mem_cons.mpr ⟨by omega, ih⟩

/-- Without a plus sign, pairs consist of hexadecimal digits. -/
theorem Pairs.isHexDigit {run : Text} {channels : List Nat} (h : Pairs run channels)
    (hplus : '+' ∉ run) : ∀ c ∈ run, isHexDigit c = true := by
  induction h with
  | nil => exact List.forall_mem_nil _
  | digits hhigh hlow _ ih =>
    simp only [List.mem_cons, not_or] at hplus
    exact List.forall_mem_cons.mpr ⟨isHexDigit_iff.mpr ⟨_, hhigh⟩,
      List.forall_mem_cons.mpr ⟨isHexDigit_iff.mpr ⟨_, hlow⟩, ih hplus.2.2⟩⟩
  | plus => exact absurd (List.mem_cons_self ..) hplus

/-- The two digits of a channel in lower case. -/
def digitPair (channel : Nat) : Text :=
  [Nat.digitChar (channel / 16), Nat.digitChar (channel % 16)]

/-- Without a plus sign, the digits of the channels are those of the pairs, up to case. -/
theorem Pairs.flatMap_digitPair {run : Text} {channels : List Nat} (h : Pairs run channels)
    (hplus : '+' ∉ run) : channels.flatMap digitPair = run.map Char.toLower := by
  induction h with
  | nil => rfl
  | @digits high low h l rest channels hhigh hlow _ ih =>
    simp only [List.mem_cons, not_or] at hplus
    have hlow' := hlow.1
    have hfirst : (16 * h + l) / 16 = h := by omega
    have hsecond : (16 * h + l) % 16 = l := by omega
    rw [List.flatMap_cons, ih hplus.2.2, digitPair, hfirst, hsecond, ← hhigh.2, ← hlow.2]
    rfl
  | plus => exact absurd (List.mem_cons_self ..) hplus

/-! ## Expansions -/

/-- The numerals of an expansion are those of the channels. -/
theorem splitOn_decimalText {channels : List Nat} (h : channels ≠ []) :
    (decimalText channels).splitOn ' ' = channels.map (Nat.toDigits 10) := by
  refine List.splitOn_intercalate ' ' (fun numeral hnumeral hspace => ?_) (by simpa using h)
  obtain ⟨n, -, rfl⟩ := List.mem_map.mp hnumeral
  exact absurd ((isCanonical_toDigits n).isDigit ' ' hspace) (by decide)

/-- The numbers that the numerals of an expansion denote are the channels. -/
theorem map_decimal_splitOn_decimalText {channels : List Nat} (h : channels ≠ []) :
    ((decimalText channels).splitOn ' ').map decimal = channels := by
  rw [splitOn_decimalText h, List.map_map]
  exact List.map_id'' decimal_toDigits channels

/-- A token is expanded exactly if it is a `#` and three or four pairs. -/
theorem ofToken?_eq_some_iff {token : Token Text} {color : HexColor} :
    ofToken? token = some color ↔
      ∃ run channels, token.value = '#' :: run ∧ (run.length = 6 ∨ run.length = 8) ∧
        Pairs run channels ∧ color = ⟨token.range, token.value, decimalText channels⟩ := by
  unfold ofToken?
  split
  · next run hvalue =>
    simp only [Option.ite_none_right_eq_some, Option.map_eq_some_iff, channels?_eq_some_iff]
    constructor
    · rintro ⟨hlength, channels, hpairs, rfl⟩
      rw [hpairs.byteLength_eq.1] at hlength
      exact ⟨run, channels, hvalue, hlength, hpairs, rfl⟩
    · rintro ⟨run', channels, hvalue', hlength, hpairs, rfl⟩
      obtain ⟨-, rfl⟩ := List.cons.inj (hvalue.symm.trans hvalue')
      exact ⟨by rwa [hpairs.byteLength_eq.1], channels, hpairs, rfl⟩
  · next hnot =>
    constructor
    · nofun
    · rintro ⟨run, channels, hvalue, -⟩
      exact absurd hvalue (hnot run)

/-- The length of a line changes by the growth of the colour that is expanded in it. -/
theorem byteLength_expand (color : HexColor) (before after : Text) :
    (byteLength (before ++ color.replacement ++ after) : Int) =
      byteLength (before ++ color.written ++ after) + color.growth := by
  simp only [byteLength_append, growth]
  omega

/-- A token is expanded exactly if it is a `#` and three or four pairs, each of them two hexadecimal
digits, or a plus sign and a digit: without a plus sign, if it is a `#` and six or eight digits. The
expansion is the row of the channels, which are the pairs read in base 16, as decimal numerals with
a space between neighbours, and none has a leading zero. The channels can be read off it again, and
so can the digits, up to case. -/
theorem ofToken?_expands (token : Token Text) :
    ((ofToken? token).isSome = true ↔
      ∃ run channels, token.value = '#' :: run ∧ (run.length = 6 ∨ run.length = 8) ∧
        Pairs run channels) ∧
    ('+' ∉ token.value → ((ofToken? token).isSome = true ↔
      ∃ run, token.value = '#' :: run ∧ (run.length = 6 ∨ run.length = 8) ∧
        ∀ c ∈ run, isHexDigit c = true)) ∧
    ∀ color, ofToken? token = some color → color.span = token.range ∧ color.written = token.value ∧
      (∃ run channels, token.value = '#' :: run ∧ Pairs run channels ∧
        (∀ channel ∈ channels, channel < 256) ∧
        color.replacement = [' '].intercalate (channels.map (Nat.toDigits 10)) ∧
        (∀ numeral ∈ color.replacement.splitOn ' ', IsCanonical numeral) ∧
        (color.replacement.splitOn ' ').map decimal = channels ∧
        ('+' ∉ run → ((color.replacement.splitOn ' ').map decimal).flatMap digitPair =
          run.map Char.toLower)) ∧
      ∀ before after, (byteLength (before ++ color.replacement ++ after) : Int) =
        byteLength (before ++ color.written ++ after) + color.growth := by
  have hexpanded : (ofToken? token).isSome = true ↔
      ∃ run channels, token.value = '#' :: run ∧ (run.length = 6 ∨ run.length = 8) ∧
        Pairs run channels := by
    simp only [Option.isSome_iff_exists, ofToken?_eq_some_iff]
    constructor
    · rintro ⟨-, run, channels, hvalue, hlength, hpairs, -⟩
      exact ⟨run, channels, hvalue, hlength, hpairs⟩
    · rintro ⟨run, channels, hvalue, hlength, hpairs⟩
      exact ⟨_, run, channels, hvalue, hlength, hpairs, rfl⟩
  refine ⟨hexpanded, fun hplus => ?_, fun color hcolor => ?_⟩
  · rw [hexpanded]
    constructor
    · rintro ⟨run, channels, hvalue, hlength, hpairs⟩
      rw [hvalue, List.mem_cons, not_or] at hplus
      exact ⟨run, hvalue, hlength, hpairs.isHexDigit hplus.2⟩
    · rintro ⟨run, hvalue, hlength, hall⟩
      obtain ⟨channels, hchannels, -⟩ := channels?_of_forall (run.length / 2) (by omega) hall
      exact ⟨run, channels, hvalue, hlength, channels?_eq_some_iff.mp hchannels⟩
  · obtain ⟨run, channels, hvalue, hlength, hpairs, rfl⟩ := ofToken?_eq_some_iff.mp hcolor
    have hne : channels ≠ [] := by
      rintro rfl
      have hcount := hpairs.byteLength_eq.2
      rw [List.length_nil] at hcount
      omega
    have hchannels := map_decimal_splitOn_decimalText hne
    refine ⟨rfl, rfl, ⟨run, channels, hvalue, hpairs, hpairs.lt, rfl, ?_, hchannels, ?_⟩,
      byteLength_expand _⟩
    · intro numeral hnumeral
      rw [splitOn_decimalText hne] at hnumeral
      obtain ⟨n, -, rfl⟩ := List.mem_map.mp hnumeral
      exact isCanonical_toDigits n
    · intro hplus
      rw [hchannels]
      exact hpairs.flatMap_digitPair hplus

/-- A token with plus signs is expanded, although it is no colour. -/
theorem exists_expanded :
    ∃ token : Token Text, (ofToken? token).isSome = true ∧
      ¬ ∃ run, token.value = '#' :: run ∧ (run.length = 6 ∨ run.length = 8) ∧
        ∀ c ∈ run, isHexDigit c = true := by
  refine ⟨⟨"#+F+F+F".toList, ⟨0, 7⟩⟩, by decide, ?_⟩
  rintro ⟨run, hvalue, -, hall⟩
  obtain ⟨-, rfl⟩ := List.cons.inj hvalue
  exact absurd (hall '+' (List.mem_cons_self ..)) (by decide)

end HexColor

end ItemFilter
