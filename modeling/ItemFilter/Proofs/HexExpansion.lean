import ItemFilter.Proofs.Scan
import ItemFilter.Rule.Color

/-!
# Expanding hexadecimal colours

A colour the cursor reads always expands, to three or four channels that are written as numbers in
a row. Splicing the expansion in gives the cursor that stands in front of these numbers.

## Main definitions

* `HexColor.channelsOf`: the channels of a colour as it is written
* `HexColor.channelSegments`: channels as they are written in a row

## Main results

* `HexColor.ofToken?_of_spelled`: a colour that was read expands to channels
* `Cursor.splice_pass`: the cursor after a token it has just passed was replaced
* `Rule.expandHex_of_hex`: what expanding the next colour comes to
-/

namespace ItemFilter

open Text Cursor

/-! ## Digits -/

/-- An ASCII character is one byte long. -/
theorem utf8Size_of_le {c : Char} (h : c.toNat ≤ 127) : c.utf8Size = 1 := by
  have hval : c.val ≤ 0x7f := UInt32.le_iff_toNat_le.mpr h
  simp [Char.utf8Size, hval]

namespace HexColor

/-- A hexadecimal digit has a value, is one byte long and is no sign. -/
theorem digit?_of_isHexDigit {c : Char} (h : isHexDigit c = true) :
    (∃ d < 16, digit? c = some d) ∧ c.utf8Size = 1 ∧ c ≠ '+' := by
  have hplus : c ≠ '+' := by
    rintro rfl
    exact absurd h (by decide)
  simp only [isHexDigit, Bool.or_eq_true] at h
  -- A digit is in one of three ranges, which are told apart in this order.
  unfold digit?
  split
  · next hdigit =>
    have hbounds := hdigit
    simp only [Char.isDigit, ge_iff_le, UInt32.le_iff_toNat_le, Bool.and_eq_true,
      decide_eq_true_eq] at hbounds
    have hval : c.toNat ≤ '9'.toNat := hbounds.2
    have hzero : '0'.toNat = 48 := rfl
    have hnine : '9'.toNat = 57 := rfl
    exact ⟨⟨_, by omega, rfl⟩, utf8Size_of_le (by omega), hplus⟩
  · next hdigit =>
    split
    · next hlower =>
      have hbounds := hlower
      simp only [Bool.and_eq_true, decide_eq_true_eq, Char.le_def,
        UInt32.le_iff_toNat_le] at hbounds
      have hval : c.toNat ≤ 'f'.toNat := hbounds.2
      have ha : 'a'.toNat = 97 := rfl
      have hf : 'f'.toNat = 102 := rfl
      exact ⟨⟨_, by omega, rfl⟩, utf8Size_of_le (by omega), hplus⟩
    · next hlower =>
      have hupper := (h.resolve_left fun h => h.elim hdigit hlower)
      have hbounds := hupper
      simp only [Bool.and_eq_true, decide_eq_true_eq, Char.le_def,
        UInt32.le_iff_toNat_le] at hbounds
      have hval : c.toNat ≤ 'F'.toNat := hbounds.2
      have ha : 'A'.toNat = 65 := rfl
      have hf : 'F'.toNat = 70 := rfl
      rw [if_pos hupper]
      exact ⟨⟨_, by omega, rfl⟩, utf8Size_of_le (by omega), hplus⟩

theorem pair?_of_isHexDigit {high low : Char} (hhigh : isHexDigit high = true)
    (hlow : isHexDigit low = true) : ∃ channel < 256, pair? high low = some channel := by
  obtain ⟨⟨h, hh, hhd⟩, -, hplus⟩ := digit?_of_isHexDigit hhigh
  obtain ⟨⟨l, hl, hld⟩, -, -⟩ := digit?_of_isHexDigit hlow
  exact ⟨16 * h + l, by omega, by simp [pair?, hplus, hhd, hld]⟩

/-- Hexadecimal digits, taken two by two, are channels. -/
theorem channels?_of_forall (n : Nat) {digits : Text} (hlength : digits.length = 2 * n)
    (hall : ∀ c ∈ digits, isHexDigit c = true) :
    ∃ channels, channels? digits = some channels ∧ channels.length = n ∧
      ∀ channel ∈ channels, channel < 256 := by
  -- Induction on the number of pairs.
  induction n generalizing digits with
  | zero =>
    obtain rfl := List.length_eq_zero_iff.mp hlength
    exact ⟨[], rfl, rfl, by simp⟩
  | succ n ih =>
    obtain ⟨high, low, rest, rfl⟩ : ∃ high low rest, digits = high :: low :: rest := by
      match digits, hlength with
      | high :: low :: rest, _ => exact ⟨high, low, rest, rfl⟩
    simp only [List.forall_mem_cons] at hall
    have hrest : rest.length = 2 * n := by
      simp only [List.length_cons] at hlength
      omega
    obtain ⟨channel, hchannel, hpair⟩ := pair?_of_isHexDigit hall.1 hall.2.1
    obtain ⟨channels, hchannels, hcount, hbound⟩ := ih hrest hall.2.2
    exact ⟨channel :: channels, by simp [channels?, hpair, hchannels], by simp [hcount],
      List.forall_mem_cons.mpr ⟨hchannel, hbound⟩⟩

theorem byteLength_of_forall {digits : Text} (hall : ∀ c ∈ digits, isHexDigit c = true) :
    byteLength digits = digits.length := by
  induction digits with
  | nil => rfl
  | cons c digits ih =>
    rw [List.forall_mem_cons] at hall
    rw [byteLength_cons, (digit?_of_isHexDigit hall.1).2.1, ih hall.2, List.length_cons,
      Nat.add_comm]

/-- The channels of a colour as it is written. -/
def channelsOf (lexeme : Text) : List Nat :=
  (channels? lexeme.tail).getD []

/-- A colour has a channel for each two of its digits. -/
theorem channelsOf_of_spelled {lexeme value : Text} (h : Spelling.hex lexeme value) :
    lexeme.length = 2 * (channelsOf lexeme).length + 1 ∧ (∀ n ∈ channelsOf lexeme, n < 256) ∧
      channels? lexeme.tail = some (channelsOf lexeme) := by
  obtain ⟨digits, rfl, hall, hlength, -⟩ := h
  obtain ⟨channels, hchannels, hcount, hbound⟩ :=
    channels?_of_forall (digits.length / 2) (by omega) hall
  have heq : channelsOf ('#' :: digits) = channels := by simp [channelsOf, hchannels]
  rw [heq, List.length_cons, List.tail_cons]
  exact ⟨by omega, hbound, hchannels⟩

/-- A colour has channels. -/
theorem channelsOf_ne_nil {lexeme value : Text} (h : Spelling.hex lexeme value) :
    channelsOf lexeme ≠ [] := by
  obtain ⟨hlength, -⟩ := channelsOf_of_spelled h
  obtain ⟨digits, rfl, -, hcount, -⟩ := h
  rintro hnil
  rw [hnil] at hlength
  simp only [List.length_cons, List.length_nil] at hlength
  omega

/-- A colour that was read expands to its channels. -/
theorem ofToken?_of_spelled (token : Token Text) (h : Spelling.hex token.value token.value) :
    ofToken? token =
      some ⟨token.range, token.value, decimalText (channelsOf token.value)⟩ := by
  obtain ⟨-, -, hchannels⟩ := channelsOf_of_spelled h
  obtain ⟨digits, hvalue, hall, hlength, -⟩ := h
  have hbytes := byteLength_of_forall hall
  rw [hvalue, List.tail_cons] at hchannels
  simp [ofToken?, hvalue, hbytes, hlength, hchannels]

/-! ## Channels in a row -/

/-- Channels as they are written in a row, the first one behind the given white space. -/
def channelSegments (gap : Text) : List Nat → List (Segment Int)
  | [] => []
  | n :: channels => ⟨gap, Nat.toDigits 10 n, n⟩ :: channelSegments [' '] channels

@[simp] theorem length_channelSegments (gap : Text) (channels : List Nat) :
    (channelSegments gap channels).length = channels.length := by
  induction channels generalizing gap with
  | nil => rfl
  | cons n channels ih => simp [channelSegments, ih]

/-- The decimal form of a colour is its channels in a row. -/
theorem texts_channelSegments (gap : Text) {channels : List Nat} (h : channels ≠ []) :
    Segment.texts (channelSegments gap channels) = gap ++ decimalText channels := by
  obtain ⟨n, channels, rfl⟩ := List.exists_cons_of_ne_nil h
  -- Induction on the channels; only the first one stands behind `gap`.
  induction channels generalizing gap n with
  | nil => simp [channelSegments, Segment.text, decimalText, List.intercalate]
  | cons m channels ih =>
    rw [channelSegments, Segment.texts_cons, ih [' '] m (by simp)]
    simp [Segment.text, decimalText, List.intercalate]

/-- The decimal form of a channel is a number. -/
theorem number_toDigits {n : Nat} (h : n < 256) :
    Spelling.number (Nat.toDigits 10 n) n := by
  refine ⟨n, ⟨Nat.toDigits 10 n, Nat.toDigits_ne_nil, fun c hc =>
    Nat.isDigit_of_mem_toDigits (by decide) (by decide) hc, Or.inl ⟨rfl, ?_⟩⟩, ?_⟩
  · exact congrArg Int.ofNat Nat.ofDigitChars_ten_toDigits.symm
  · unfold clampNumber
    omega

theorem channelSegments_isOf {gap : Text} (hblank : allBlank gap = true) (hne : gap ≠ [])
    {channels : List Nat} (h : ∀ n ∈ channels, n < 256) :
    ∀ p ∈ channelSegments gap channels, p.IsOf Spelling.number := by
  induction channels generalizing gap with
  | nil => simp [channelSegments]
  | cons n channels ih =>
    rw [List.forall_mem_cons] at h
    rw [channelSegments, List.forall_mem_cons]
    exact ⟨⟨hblank, hne, number_toDigits h.1⟩, ih (by decide) (by simp) h.2⟩

/-- The values of channels in a row are the channels. -/
theorem value_of_mem_channelSegments {gap : Text} {channels : List Nat} {p : Segment Int}
    (hp : p ∈ channelSegments gap channels) : ∃ n ∈ channels, p.value = n := by
  induction channels generalizing gap with
  | nil => simp [channelSegments] at hp
  | cons n channels ih =>
    rcases List.mem_cons.mp hp with rfl | hp
    · exact ⟨n, List.mem_cons_self .., rfl⟩
    · obtain ⟨m, hm, hvalue⟩ := ih hp
      exact ⟨m, List.mem_cons_of_mem _ hm, hvalue⟩

/-- Neither end of the decimal form of a colour is white space, and it is in one line. -/
theorem decimalText_solid {channels : List Nat} (h : channels ≠ []) :
    IsFlush (decimalText channels) ∧ trimEnd (decimalText channels) = decimalText channels ∧
      ∀ c ∈ decimalText channels, c = ' ' ∨ c.isDigit = true := by
  have hdigit : ∀ n, ∀ c ∈ Nat.toDigits 10 n, c.isDigit = true := fun n c hc =>
    Nat.isDigit_of_mem_toDigits (by decide) (by decide) hc
  have hflush : ∀ n, IsFlush (Nat.toDigits 10 n) := fun n =>
    isFlush_of_forall (fun _ => isBlank_of_isDigit) Nat.toDigits_ne_nil (hdigit n)
  obtain ⟨n, channels, rfl⟩ := List.exists_cons_of_ne_nil h
  -- Induction on the channels, each of them a run of digits.
  induction channels generalizing n with
  | nil =>
    have hone : decimalText [n] = Nat.toDigits 10 n := by simp [decimalText, List.intercalate]
    rw [hone]
    refine ⟨hflush n, trimEnd_eq_self fun c hc => ?_, fun c hc => Or.inr (hdigit n c hc)⟩
    exact isBlank_of_isDigit (hdigit n c (List.mem_of_getLast? hc))
  | cons m channels ih =>
    obtain ⟨hrest, hend, hchars⟩ := ih m (by simp)
    have hcons : decimalText (n :: m :: channels) =
        Nat.toDigits 10 n ++ ([' '] ++ decimalText (m :: channels)) := by
      simp [decimalText, List.intercalate]
    rw [hcons]
    refine ⟨(hflush n).append _, ?_, ?_⟩
    · have hnot : allBlank ([' '] ++ decimalText (m :: channels)) = false := by
        rw [allBlank_append, hrest.allBlank_eq_false, Bool.and_false]
      rw [trimEnd_append_of_not hnot, trimEnd_append_of_not hrest.allBlank_eq_false, hend]
    · intro c hc
      rcases List.mem_append.mp hc with hc | hc
      · exact Or.inr (hdigit n c hc)
      · rcases List.mem_cons.mp hc with rfl | hc
        · exact Or.inl rfl
        · exact hchars c hc

end HexColor

/-! ## Colours as they are written -/

/-- A colour does not end with white space. -/
theorem Spelling.hex_trimEnd {lexeme value : Text} (h : Spelling.hex lexeme value) :
    trimEnd lexeme = lexeme := by
  obtain ⟨digits, rfl, hall, -, -⟩ := h
  refine trimEnd_eq_self fun c hc => ?_
  rcases List.mem_cons.mp (List.mem_of_getLast? hc) with rfl | hc
  · decide
  · exact isBlank_of_isHexDigit (hall c hc)

/-! ## Splicing -/

/-- The cursor after the token it has just passed was replaced: it stands in front of the
replacement. -/
theorem Cursor.splice_pass (cursor : Cursor) (gap lexeme after new : Text) :
    (cursor.pass (gap ++ lexeme) after).splice (spanOf (cursor.consumed ++ gap) lexeme) new =
      ⟨cursor.consumed ++ gap, new ++ after, ⟨cursor.content.start,
        cursor.content.stop + byteLength new - byteLength lexeme⟩⟩ := by
  -- What was passed is cut in front of the lexeme, with nothing behind it.
  have hcut : cut? (spanOf (cursor.consumed ++ gap) lexeme).start
      (spanOf (cursor.consumed ++ gap) lexeme).stop (cursor.consumed ++ gap ++ lexeme) =
        some (cursor.consumed ++ gap, lexeme, []) := by
    have h := cut?_append (cursor.consumed ++ gap) lexeme []
    rwa [List.append_nil] at h
  rw [splice, pass_consumed, ← List.append_assoc, hcut]
  simp

/-! ## Expanding -/

/-- A colour that comes next is replaced by its channels, and the extent of the line is adjusted. -/
theorem Rule.expandHex_of_spelled {cursor : Cursor} {gap lexeme after value : Text}
    (hrest : cursor.rest = gap ++ lexeme ++ after) (hgap : allBlank gap = true)
    (hspelled : Spelling.hex lexeme value) (hb : atBoundary after = true) :
    expandHex cursor =
      ([⟨spanOf (cursor.consumed ++ gap) lexeme, lexeme,
          HexColor.decimalText (HexColor.channelsOf lexeme)⟩],
        ⟨cursor.consumed ++ gap, HexColor.decimalText (HexColor.channelsOf lexeme) ++ after,
          ⟨cursor.content.start, cursor.content.stop +
            byteLength (HexColor.decimalText (HexColor.channelsOf lexeme)) -
              byteLength lexeme⟩⟩) := by
  obtain ⟨-, -, -, -, rfl⟩ := id hspelled
  have hcolor :=
    HexColor.ofToken?_of_spelled (Segment.token cursor.consumed ⟨gap, value, value⟩) hspelled
  have hread := read_eq_some_iff.mpr (scan?_of_spelled matchHex_reads hrest hgap hspelled hb)
  rw [expandHex, Cursor.hex, hread]
  simp only [hcolor]
  rw [Segment.token_value, Segment.token, splice_pass]

/-- A segment that is a colour is expanded. -/
theorem Rule.expandHex_of_hex {p : Segment Text} (hp : p.IsOf Spelling.hex) (cursor : Cursor)
    {after : Text} (hrest : cursor.rest = p.text ++ after) (hb : atBoundary after = true) :
    expandHex cursor =
      ([⟨spanOf (cursor.consumed ++ p.gap) p.lexeme, p.lexeme,
          HexColor.decimalText (HexColor.channelsOf p.lexeme)⟩],
        ⟨cursor.consumed ++ p.gap, HexColor.decimalText (HexColor.channelsOf p.lexeme) ++ after,
          ⟨cursor.content.start, cursor.content.stop +
            byteLength (HexColor.decimalText (HexColor.channelsOf p.lexeme)) -
              byteLength p.lexeme⟩⟩) :=
  expandHex_of_spelled hrest hp.blank hp.spelled hb

/-- In front of a number there is nothing to expand. -/
theorem Rule.expandHex_of_number {p : Segment Int} (hp : p.IsOf Spelling.number) {cursor : Cursor}
    {after : Text} (hrest : cursor.rest = p.text ++ after) : expandHex cursor = ([], cursor) := by
  rw [expandHex, Cursor.hex, read_of_apart matchHex_reads Spelling.hex_apart_number hp
    (matchNumber_reads.flush hp.spelled) hrest]

/-- Either a colour comes next, or there is nothing to expand. -/
theorem Rule.expandHex_cases (cursor : Cursor) (hb : atBoundary cursor.rest = true) :
    expandHex cursor = ([], cursor) ∨
      ∃ p after, Segment.IsOf Spelling.hex p ∧ cursor.rest = p.text ++ after ∧
        atBoundary after = true := by
  rcases hhex : cursor.hex with ⟨_ | token, next⟩
  · refine Or.inl ?_
    rw [expandHex, hhex, (scan?_of_read_eq_none hhex).2]
  · obtain ⟨p, after, hp, hrest, hafter, -⟩ := exists_segment_of_read matchHex_reads hb hhex
    exact Or.inr ⟨p, after, hp, hrest, hafter⟩

end ItemFilter
