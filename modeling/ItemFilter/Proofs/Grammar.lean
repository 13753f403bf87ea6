import Mathlib.Computability.Language
import ItemFilter.Proofs.Phrase

/-!
# The grammar of the arguments

What may follow the keyword of a rule, as a language over characters. Numbers stand for the integers
they denote, however large, although the cursor only knows the nearest 64-bit integer: no rule
allows a number that far out. A language of arguments is a sum of products whose factors start with
white space, and such a product is a row of segments, so that phrases and words of the grammar are
the same thing.

## Main definitions

* `Grammar.gap`, `Grammar.number`, `Grammar.word`, `Grammar.hex`, ...: the parts of a rule
* `ArgumentRule.grammar`: what may follow a keyword and white space
* `Grammar.rows`: the characters of consecutive segments with given values

## Main results

* `ArgumentRule.exists_fits_iff_mem`: a phrase with its end is a word of the grammar
-/

namespace ItemFilter

open Text Rule
open Cursor (atBoundary isHexDigit sameIgnoringCase clampNumber)
open scoped Computability

variable {α : Type}

/-! ## The parts of a rule -/

namespace Grammar

/-- White space, or nothing. -/
def blank : Language Char :=
  {text | allBlank text = true}

/-- White space. -/
def gap : Language Char :=
  {text | allBlank text = true ∧ text ≠ []}

/-- Something that may be left out. -/
def optional (l : Language Char) : Language Char :=
  1 + l

/-- The lexemes of a class of tokens whose values are allowed. -/
def lexemes (spelling : Spelling α) (allowed : α → Prop) : Language Char :=
  {text | ∃ a, spelling text a ∧ allowed a}

/-- Any comparison. -/
def comparison : Language Char :=
  lexemes Spelling.operator fun _ => True

/-- The comparison `=`. -/
def equality : Language Char :=
  {['=']}

/-- A numeral for one of the integers allowed. -/
def number (allowed : Int → Prop) : Language Char :=
  lexemes Spelling.numeral allowed

/-- The name of a truth value. -/
def truth : Language Char :=
  lexemes Spelling.boolean fun _ => True

/-- One of the strings allowed, if it is no comment. -/
def word (allowed : Text → Prop) : Language Char :=
  lexemes Spelling.argument allowed

/-- A hexadecimal colour with `n` digits. -/
def hex (n : Nat) : Language Char :=
  {text | ∃ digits : Text, text = '#' :: digits ∧ digits.length = n ∧
    ∀ c ∈ digits, isHexDigit c = true}

/-- A comment, up to the end of the line. -/
def comment : Language Char :=
  {text | text.head? = some '#'}

/-- A channel of a colour. -/
def channel : Language Char :=
  number fun n => 0 ≤ n ∧ n ≤ 255

/-- A colour in decimal. -/
def decimalColor : Language Char :=
  channel * gap * channel * gap * channel * optional (gap * channel)

/-- A colour in hexadecimal, which may leave its alpha channel to a number. -/
def hexColor : Language Char :=
  hex 6 * optional (gap * channel) + hex 8

/-- A sound, possibly with a volume. -/
def sound : Language Char :=
  number (fun n => 1 ≤ n ∧ n ≤ 9) * optional (gap * number fun n => 0 ≤ n ∧ n ≤ 300)

end Grammar

open Grammar

/-- What may follow a keyword and white space. -/
def ArgumentRule.grammar (catalog : Catalog) : ArgumentRule → Language Char
  | .range bounds true =>
    optional (comparison * gap) * number fun n => bounds.least ≤ n ∧ n ≤ bounds.greatest
  | .range bounds false => number fun n => bounds.least ≤ n ∧ n ≤ bounds.greatest
  | .boolean => optional (equality * gap) * truth
  | .oneOf allowed =>
    optional (comparison * gap) *
      word fun w => ∃ choice ∈ allowed, sameIgnoringCase choice.toList w = true
  | .operatorNumber allowed => optional (comparison * gap) * number (· ∈ allowed)
  | .socketGroup =>
    optional (equality * gap) *
      word fun w => 1 ≤ w.length ∧ w.length ≤ 6 ∧ ∀ c ∈ w, c ∈ "RGBWrgbw".toList
  | .catalogList names =>
    let name := word fun w => w ≠ [] ∧ (catalog.names names).covers w = true
    optional (equality * gap) * (name * (gap * name)∗)
  | .color =>
    optional (equality * gap) * (hexColor + decimalColor) * optional (gap * comment)
  | .alertSound => optional (equality * gap) * sound * optional (gap * comment)

namespace Grammar

/-! ## Segments -/

theorem mem_optional {l : Language Char} {text : Text} :
    text ∈ optional l ↔ text = [] ∨ text ∈ l :=
  Iff.rfl

/-- White space may be taken out of an optional part to the front. -/
theorem gap_mul_optional (l rest : Language Char) :
    gap * (optional (l * gap) * rest) = optional (gap * l) * (gap * rest) := by
  simp only [optional, add_mul, mul_add, one_mul, mul_assoc]

/-- The characters of consecutive segments of a class whose values are allowed. -/
def rows (spelling : Spelling α) (allowed : List α → Prop) : Language Char :=
  {text | ∃ ps : List (Segment α), (∀ p ∈ ps, p.IsOf spelling) ∧ allowed (ps.map Segment.value) ∧
    text = Segment.texts ps}

variable {spelling : Spelling α}

theorem mem_gap_mul_lexemes {allowed : α → Prop} {text : Text} :
    text ∈ gap * lexemes spelling allowed ↔
      ∃ p : Segment α, p.IsOf spelling ∧ allowed p.value ∧ text = p.text := by
  rw [Language.mem_mul]
  constructor
  · rintro ⟨blanks, ⟨hblank, hne⟩, lexeme, ⟨a, hspelled, ha⟩, rfl⟩
    exact ⟨⟨blanks, lexeme, a⟩, ⟨hblank, hne, hspelled⟩, ha, rfl⟩
  · rintro ⟨p, hp, ha, rfl⟩
    exact ⟨p.gap, ⟨hp.blank, hp.gap_ne_nil⟩, p.lexeme, ⟨p.value, hp.spelled, ha⟩, rfl⟩

/-- No values take no characters. -/
theorem rows_nil : rows spelling (· = []) = 1 := by
  ext text
  rw [Language.mem_one]
  constructor
  · rintro ⟨ps, -, hnil, rfl⟩
    rw [List.map_eq_nil_iff.mp hnil, Segment.texts_nil]
  · rintro rfl
    exact ⟨[], nofun, rfl, rfl⟩

/-- The first value stands in front of the others. -/
theorem rows_cons (first : α → Prop) (others : List α → Prop) :
    rows spelling (fun values => ∃ a as, values = a :: as ∧ first a ∧ others as) =
      gap * lexemes spelling first * rows spelling others := by
  ext text
  rw [Language.mem_mul]
  constructor
  · rintro ⟨ps, hps, ⟨a, as, hvalues, ha, has⟩, rfl⟩
    obtain ⟨p, qs, rfl, rfl, rfl⟩ := List.map_eq_cons_iff.mp hvalues
    rw [List.forall_mem_cons] at hps
    exact ⟨p.text, mem_gap_mul_lexemes.mpr ⟨p, hps.1, ha, rfl⟩, Segment.texts qs,
      ⟨qs, hps.2, has, rfl⟩, rfl⟩
  · rintro ⟨left, hleft, right, ⟨qs, hqs, has, rfl⟩, rfl⟩
    obtain ⟨p, hp, ha, rfl⟩ := mem_gap_mul_lexemes.mp hleft
    exact ⟨p :: qs, List.forall_mem_cons.mpr ⟨hp, hqs⟩, ⟨_, _, rfl, ha, has⟩, rfl⟩

/-- Either of two kinds of values. -/
theorem rows_or (left right : List α → Prop) :
    rows spelling (fun values => left values ∨ right values) =
      rows spelling left + rows spelling right := by
  ext text
  rw [Language.mem_add]
  constructor
  · rintro ⟨ps, hps, hleft | hright, rfl⟩
    · exact Or.inl ⟨ps, hps, hleft, rfl⟩
    · exact Or.inr ⟨ps, hps, hright, rfl⟩
  · rintro (⟨ps, hps, hleft, rfl⟩ | ⟨ps, hps, hright, rfl⟩)
    · exact ⟨ps, hps, Or.inl hleft, rfl⟩
    · exact ⟨ps, hps, Or.inr hright, rfl⟩

/-- A single value. -/
theorem rows_singleton (allowed : α → Prop) :
    rows spelling (fun values => ∃ a, values = [a] ∧ allowed a) =
      gap * lexemes spelling allowed := by
  have hcons : _ = gap * lexemes spelling allowed * rows spelling (· = []) := rows_cons allowed _
  rw [rows_nil, mul_one] at hcons
  rw [← hcons]
  congr 1
  ext values
  constructor
  · rintro ⟨a, rfl, ha⟩
    exact ⟨a, [], rfl, ha, rfl⟩
  · rintro ⟨a, _, rfl, ha, rfl⟩
    exact ⟨a, rfl, ha⟩

/-- Any number of values. -/
theorem rows_forall (allowed : α → Prop) :
    rows spelling (fun values => ∀ a ∈ values, allowed a) = (gap * lexemes spelling allowed)∗ := by
  ext text
  rw [Language.mem_kstar]
  constructor
  · rintro ⟨ps, hps, hvalues, rfl⟩
    refine ⟨ps.map Segment.text, List.flatMap_def, fun y hy => ?_⟩
    obtain ⟨p, hp, rfl⟩ := List.mem_map.mp hy
    exact mem_gap_mul_lexemes.mpr ⟨p, hps p hp, hvalues _ (List.mem_map_of_mem hp), rfl⟩
  · rintro ⟨texts, rfl, htexts⟩
    -- Induction on the factors, each of them a segment with an allowed value.
    induction texts with
    | nil => exact ⟨[], nofun, nofun, rfl⟩
    | cons y texts ih =>
      rw [List.forall_mem_cons] at htexts
      obtain ⟨p, hp, ha, rfl⟩ := mem_gap_mul_lexemes.mp htexts.1
      obtain ⟨ps, hps, hvalues, hflatten⟩ := ih htexts.2
      refine ⟨p :: ps, List.forall_mem_cons.mpr ⟨hp, hps⟩,
        List.forall_mem_cons.mpr ⟨ha, hvalues⟩, ?_⟩
      rw [List.flatten_cons, hflatten, Segment.texts_cons]

/-- An operator in front of the values, if there is one. -/
theorem mem_optional_operator {allowed : Operator → Prop} {text : Text} :
    text ∈ optional (gap * lexemes Spelling.operator allowed) ↔
      ∃ op : Option (Segment Operator), (∀ p ∈ op, p.IsOf Spelling.operator) ∧
        (∀ value ∈ op.map Segment.value, allowed value) ∧ text = Segment.texts op.toList := by
  rw [mem_optional, mem_gap_mul_lexemes]
  constructor
  · rintro (rfl | ⟨p, hp, ha, rfl⟩)
    · exact ⟨none, nofun, nofun, rfl⟩
    · refine ⟨some p, fun q hq => Option.mem_some_iff.mp hq ▸ hp,
        fun value hvalue => Option.mem_some_iff.mp hvalue ▸ ha, ?_⟩
      simp
  · rintro ⟨_ | p, hop, hvalues, rfl⟩
    · exact Or.inl rfl
    · exact Or.inr ⟨p, hop p rfl, hvalues _ rfl, by simp⟩

/-- Where no operator is allowed there is none. -/
theorem optional_false : optional (gap * lexemes spelling fun _ => False) = 1 := by
  rw [optional, ← rows_singleton]
  ext text
  rw [Language.mem_add]
  refine or_iff_left ?_
  rintro ⟨ps, -, ⟨a, -, hfalse⟩, -⟩
  exact hfalse

theorem equality_eq_lexemes : equality = lexemes Spelling.operator (· = .equal) := by
  ext text
  constructor
  · rintro rfl
    exact ⟨.equal, rfl, rfl⟩
  · rintro ⟨_, rfl, rfl⟩
    rfl

/-- The cursor tells apart all integers that are no 64-bit extremes. -/
theorem number_eq_lexemes {allowed : Int → Prop}
    (h : ∀ n, allowed n → -9223372036854775808 < n ∧ n < 9223372036854775807) :
    number allowed = lexemes Spelling.number allowed := by
  ext text
  constructor
  · rintro ⟨n, hspelled, hn⟩
    refine ⟨n, ⟨n, hspelled, ?_⟩, hn⟩
    have hbounds := h n hn
    -- a numeral that far out is read as an extreme, which is not allowed
    rw [clampNumber]
    omega
  · rintro ⟨n, hspelled, hn⟩
    obtain ⟨hlow, hhigh⟩ := h n hn
    exact ⟨n, Spelling.numeral_of_number hspelled hlow hhigh, hn⟩

/-- The letters of sockets, in either case. -/
theorem isSocketLetter_iff {c : Char} : isSocketLetter c = true ↔ c ∈ "RGBWrgbw".toList := by
  have hlist : "RGBWrgbw".toList = ['R', 'G', 'B', 'W', 'r', 'g', 'b', 'w'] := rfl
  -- The code points of a letter and its upper case differ by 32.
  have hupper : c.toUpper.toNat + 32 = c.toNat ∧ 97 ≤ c.toNat ∨
      c.toUpper.toNat = c.toNat ∧ ¬ (97 ≤ c.toNat ∧ c.toNat ≤ 122) := by
    by_cases hlower : 97 ≤ c.toNat ∧ c.toNat ≤ 122
    · have hval : c.toUpper.val = c.val + ('A'.val - 'a'.val) := by
        delta Char.toUpper
        rw [dif_pos ⟨hlower.1, hlower.2⟩]
      have hadd : c.toUpper.toNat = (c.toNat + ('A'.val - 'a'.val).toNat) % 4294967296 :=
        (congrArg UInt32.toNat hval).trans (UInt32.toNat_add ..)
      have hshift : ('A'.val - 'a'.val).toNat = 4294967264 := by decide
      omega
    · have hsame : c.toUpper = c := dif_neg fun h => hlower ⟨h.1, h.2⟩
      exact Or.inr ⟨congrArg Char.toNat hsame, hlower⟩
  rw [isSocketLetter, hlist]
  simp only [List.contains_eq_mem, List.mem_cons, List.not_mem_nil, or_false, decide_eq_true_eq,
    ← Char.toNat_inj, Char.reduceToNat]
  omega

theorem optional_eq_rows (allowed : α → Prop) :
    optional (gap * lexemes spelling allowed) =
      rows spelling fun values => values = [] ∨ ∃ a, values = [a] ∧ allowed a := by
  rw [rows_or, rows_nil, rows_singleton, optional]

/-- The channels that may follow `n` channels of a colour. -/
def channels (n : Nat) : Language Char :=
  rows Spelling.number fun values =>
    3 ≤ n + values.length ∧ n + values.length ≤ 4 ∧ ∀ m ∈ values, channelBounds.contains m = true

theorem channel_eq_lexemes :
    channel = lexemes Spelling.number fun n => channelBounds.contains n = true := by
  have hsame : (fun n : Int => 0 ≤ n ∧ n ≤ 255) = fun n => channelBounds.contains n = true :=
    funext fun n => propext channelBounds.contains_iff.symm
  rw [channel, number_eq_lexemes fun n hn => ⟨by omega, by omega⟩, hsame]

theorem channels_of_lt {n : Nat} (h : n < 3) : channels n = gap * channel * channels (n + 1) := by
  rw [channels, channel_eq_lexemes, channels, ← rows_cons]
  congr 1
  ext values
  cases values with
  | nil => simp [h]
  | cons m values => simp [Nat.add_assoc, Nat.add_comm 1, and_assoc, and_left_comm]

theorem channels_four : channels 4 = 1 := by
  rw [channels, ← rows_nil]
  congr 1
  ext values
  cases values <;> simp

theorem channels_three : channels 3 = optional (gap * channel) := by
  rw [channels, channel_eq_lexemes, optional_eq_rows]
  congr 1
  ext values
  rcases values with _ | ⟨m, _ | ⟨m', values⟩⟩
  · simp
  · simp
  · simp
    omega

theorem channels_zero : channels 0 = gap * decimalColor := by
  rw [channels_of_lt (by decide), channels_of_lt (by decide), channels_of_lt (by decide),
    channels_three, decimalColor]
  simp only [mul_assoc]

theorem rows_sound :
    rows Spelling.number (fun values => values ≠ [] ∧ values.length ≤ 2 ∧
      ∀ n ∈ values.zip [soundBounds, volumeBounds], n.2.contains n.1 = true) = gap * sound := by
  rw [sound, number_eq_lexemes fun n hn => ⟨by omega, by omega⟩,
    number_eq_lexemes fun n hn => ⟨by omega, by omega⟩, ← mul_assoc, optional_eq_rows, ← rows_cons]
  congr 1
  ext values
  rcases values with _ | ⟨m, _ | ⟨m', _ | ⟨m'', values⟩⟩⟩ <;>
    simp [soundBounds, volumeBounds, Bounds.contains_iff]

theorem rows_names (allowed : Text → Prop) :
    rows Spelling.argument (fun values => values ≠ [] ∧ ∀ w ∈ values, allowed w) =
      gap * (word allowed * (gap * word allowed)∗) := by
  rw [word, ← mul_assoc, ← rows_forall, ← rows_cons]
  congr 1
  ext values
  cases values <;> simp

end Grammar

/-! ## The end of the line -/

namespace ArgumentRule

/-- What may follow the arguments of a rule. -/
def closing (rule : ArgumentRule) : Language Char :=
  if rule.allowsComment then optional (gap * comment) * blank else blank

theorem mem_closing {rule : ArgumentRule} {tail : Text} :
    tail ∈ rule.closing ↔ atBoundary tail = true ∧ rule.Ends tail := by
  rw [closing, Ends]
  cases rule.allowsComment with
  | false =>
    refine ⟨fun h => ⟨atBoundary_of_allBlank h, Or.inl h⟩, fun h => ?_⟩
    exact h.2.resolve_right nofun
  | true =>
    rw [if_pos rfl, Language.mem_mul]
    constructor
    · rintro ⟨_, rfl | ⟨blanks, ⟨hblank, hne⟩, text, hhead, rfl⟩, after, hafter, rfl⟩
      · exact ⟨atBoundary_of_allBlank hafter, Or.inl hafter⟩
      · obtain ⟨body, rfl⟩ := List.head?_eq_some_iff.mp hhead
        refine ⟨?_, Or.inr ⟨rfl, ?_⟩⟩
        · rw [List.append_assoc]
          exact atBoundary_append hblank hne _
        · rw [List.append_assoc, List.cons_append,
            trimStart_append_of_flush hblank (isFlush_cons.mpr (by decide)), List.head?_cons]
    · rintro ⟨hb, hblank | ⟨-, hhead⟩⟩
      · exact ⟨[], Or.inl rfl, tail, hblank, rfl⟩
      · have hsplit := leading_append_trimStart tail
        obtain ⟨body, hbody⟩ := List.head?_eq_some_iff.mp hhead
        have hflush : IsFlush (trimStart tail) := hbody ▸ isFlush_cons.mpr (by decide)
        rw [← hsplit] at hb
        refine ⟨tail, Or.inr ⟨leading tail, ⟨allBlank_leading _, ne_nil_of_atBoundary hb hflush⟩,
          trimStart tail, hhead, hsplit⟩, [], allBlank_nil, List.append_nil _⟩

end ArgumentRule

/-! ## Phrases -/

section Fits

variable {catalog : Catalog} {rule : ArgumentRule} {spelling : Spelling α} {f : α → Value}
  {operators : Operator → Prop} {rest : Text}

/-- A phrase with its end is an operator, values and an end. -/
theorem exists_fits_iff (hf : spelling.MakesValues f) {allowed : List α → Prop}
    (hadmits : ∀ operator values, rule.Admits catalog operator values ↔
      (∀ op ∈ operator, operators op) ∧ ∃ as, values = as.map f ∧ allowed as) :
    (∃ r tail, Phrase.Fits catalog rule rest tail r ∧ rule.Ends tail) ↔
      rest ∈ optional (gap * lexemes Spelling.operator operators) *
        (rows spelling allowed * rule.closing) := by
  simp only [Language.mem_mul, mem_optional_operator, ArgumentRule.mem_closing]
  constructor
  · rintro ⟨r, tail, hfits, hends⟩
    obtain ⟨hop, as, hvalues, has⟩ := (hadmits _ _).mp hfits.admitted
    obtain ⟨ps, hps, hmap, hspelled, hrest⟩ := exists_segments_of_fits hf hfits hvalues
    exact ⟨_, ⟨r.operator, hfits.operator, hop, rfl⟩, _, ⟨_, ⟨ps, hspelled, hmap ▸ has, rfl⟩, tail,
      ⟨hfits.boundary, hends⟩, rfl⟩, hrest.symm⟩
  · rintro ⟨_, ⟨op, hop, hoperators, rfl⟩, _, ⟨_, ⟨ps, hps, has, rfl⟩, tail, ⟨hb, hends⟩, rfl⟩, rfl⟩
    have hadmitted := (hadmits _ _).mpr ⟨hoperators, _, rfl, has⟩
    exact ⟨_, tail, fits_of_segments hf hop hps hadmitted rfl rfl hb, hends⟩

/-- A phrase of a single value with its end is an operator, a lexeme and an end. -/
theorem exists_fits_iff_single (hf : spelling.MakesValues f) {allowed : α → Prop}
    (hadmits : ∀ operator values, rule.Admits catalog operator values ↔
      (∀ op ∈ operator, operators op) ∧ ∃ a, values = [f a] ∧ allowed a) :
    (∃ r tail, Phrase.Fits catalog rule rest tail r ∧ rule.Ends tail) ↔
      rest ∈ optional (gap * lexemes Spelling.operator operators) *
        (gap * lexemes spelling allowed * rule.closing) := by
  rw [← rows_singleton allowed]
  refine exists_fits_iff hf fun operator values => (hadmits operator values).trans
    (and_congr_right fun _ => ⟨?_, ?_⟩)
  · rintro ⟨a, rfl, ha⟩
    exact ⟨[a], rfl, a, rfl, ha⟩
  · rintro ⟨_, rfl, a, rfl, ha⟩
    exact ⟨a, rfl, ha⟩

end Fits

namespace ArgumentRule

/-- The numbers of a rule are 64-bit integers, and none of them is the least or the greatest. -/
def IsBounded : ArgumentRule → Prop
  | .range bounds _ => -9223372036854775808 < bounds.least ∧ bounds.greatest < 9223372036854775807
  | .operatorNumber allowed =>
    ∀ n ∈ allowed, -9223372036854775808 < n ∧ n < 9223372036854775807
  | _ => True

theorem isBounded_of_kind {keyword : Keyword} {category : Category} {rule : ArgumentRule}
    (h : keyword.kind = .rule category rule) : rule.IsBounded := by
  cases keyword <;> cases h <;> simp [IsBounded]

variable {catalog : Catalog} {rest : Text}

variable (catalog) in
/-- A phrase of a colour with its end starts with a decimal colour. -/
theorem exists_fits_color_iff_mem :
    (∃ r tail, Phrase.Fits catalog .color rest tail r ∧ ArgumentRule.color.Ends tail) ↔
      rest ∈ optional (gap * equality) * (gap * decimalColor * ArgumentRule.color.closing) := by
  rw [← channels_zero, equality_eq_lexemes, channels]
  refine exists_fits_iff Spelling.number_makesValues fun operator values => ?_
  simp [Admits, IsEquality]

/-- A phrase with its end is a word of the grammar, unless it is that of a colour. -/
theorem exists_fits_iff_mem {rule : ArgumentRule} (hrule : rule.IsBounded) (hne : rule ≠ .color) :
    (∃ r tail, Phrase.Fits catalog rule rest tail r ∧ rule.Ends tail) ↔
      rest ∈ gap * rule.grammar catalog * blank := by
  -- Both sides are brought to an operator, values and an end, rule by rule.
  cases rule with
  | range bounds allowed =>
    have hbounds : ∀ n, bounds.least ≤ n ∧ n ≤ bounds.greatest →
        -9223372036854775808 < n ∧ n < 9223372036854775807 := fun n hn =>
      ⟨lt_of_lt_of_le hrule.1 hn.1, lt_of_le_of_lt hn.2 hrule.2⟩
    cases allowed with
    | true =>
      rw [grammar, number_eq_lexemes hbounds, gap_mul_optional, mul_assoc]
      refine exists_fits_iff_single Spelling.number_makesValues fun operator values => ?_
      simp [Admits, Bounds.contains_iff]
    | false =>
      rw [grammar, number_eq_lexemes hbounds, ← one_mul (gap * _ * blank), ← optional_false]
      refine exists_fits_iff_single Spelling.number_makesValues fun operator values => ?_
      simp [Admits, Bounds.contains_iff, Option.eq_none_iff_forall_ne_some]
  | boolean =>
    rw [grammar, gap_mul_optional, mul_assoc, equality_eq_lexemes]
    refine exists_fits_iff_single Spelling.boolean_makesValues fun operator values => ?_
    simp [Admits, IsEquality]
  | oneOf allowed =>
    rw [grammar, gap_mul_optional, mul_assoc]
    refine exists_fits_iff_single Spelling.argument_makesValues fun operator values => ?_
    simp [Admits]
  | operatorNumber allowed =>
    rw [grammar, number_eq_lexemes hrule, gap_mul_optional, mul_assoc]
    refine exists_fits_iff_single Spelling.number_makesValues fun operator values => ?_
    simp [Admits]
  | socketGroup =>
    rw [grammar, gap_mul_optional, mul_assoc, equality_eq_lexemes]
    refine exists_fits_iff_single Spelling.argument_makesValues fun operator values => ?_
    simp [Admits, IsEquality, isSocketGroup, isSocketLetter_iff, and_assoc]
  | catalogList names =>
    rw [grammar, gap_mul_optional, ← rows_names, mul_assoc, equality_eq_lexemes]
    refine exists_fits_iff Spelling.argument_makesValues fun operator values => ?_
    simp [Admits, IsEquality, isKnownName]
  | color => exact absurd rfl hne
  | alertSound =>
    rw [grammar, mul_assoc, mul_assoc, mul_assoc, gap_mul_optional, ← mul_assoc gap sound,
      ← rows_sound, equality_eq_lexemes]
    refine exists_fits_iff Spelling.number_makesValues fun operator values => ?_
    simp [Admits, IsEquality]

end ArgumentRule

end ItemFilter
