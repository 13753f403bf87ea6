import ItemFilter.Proofs.Grammar
import ItemFilter.Proofs.Rewriting

/-!
# The lines a rule accepts

A line with the keyword of a rule has no error exactly if the rest of it belongs to the grammar of
the rule. For all rules but colours this is what phrases say. A colour in hexadecimal is read from
the expanded line, where it is a row of channels that further channels and the end have to follow;
since the grammar does not mention the expansion, the same has to hold behind the colour as it was
written.

## Main results

* `Rule.color_valid_iff`: what has to follow the first channels of a colour
* `Rule.HexLine.valid_iff`: what has to follow a hexadecimal colour
* `Rule.read_valid_iff_mem`: a rule is valid if its arguments belong to the grammar
* `Classifier.parse_rule_valid_iff`: so is a line
-/

namespace ItemFilter

open Text HexColor Grammar
open Cursor (atBoundary atStart extent breaksLine)

namespace Rule

variable {catalog : Catalog} {keyword : Keyword} {cursor : Cursor} {op : Option (Segment Operator)}

theorem admits_color_iff {operator : Option Operator} {values : List Int} :
    ArgumentRule.color.Admits catalog operator (values.map .number) ↔
      IsEquality operator ∧ 3 ≤ values.length ∧ values.length ≤ 4 ∧
        ∀ n ∈ values, channelBounds.contains n = true := by
  have hinjective : ∀ m n : Int, Value.number m = .number n → m = n := fun m n h => by
    injection h
  constructor
  · rintro ⟨heq, numbers, hmap, h⟩
    obtain rfl := (List.map_inj_right hinjective).mp hmap
    exact ⟨heq, h⟩
  · rintro ⟨heq, h⟩
    exact ⟨heq, values, rfl, h⟩

/-- A valid colour whose first channels are known is a phrase that goes on with the others. -/
theorem exists_fits_of_color_valid (hop : ∀ p ∈ op, p.IsOf Spelling.operator)
    (heq : IsEquality (op.map Segment.value)) {p : Segment Int} {ps : List (Segment Int)}
    (hps : ∀ q ∈ p :: ps, q.IsOf Spelling.number) (hfour : (p :: ps).length ≤ 4) {after : Text}
    (hb : atBoundary after = true)
    (hrest : cursor.rest = Segment.texts op.toList ++ (Segment.texts (p :: ps) ++ after))
    (hvalid : (read catalog keyword .color cursor).1.invalid = false) :
    ∃ qs tail, (∀ q ∈ qs, Segment.IsOf Spelling.number q) ∧ after = Segment.texts qs ++ tail ∧
      Phrase.Fits catalog .color cursor.rest tail ⟨op, (p :: ps ++ qs).map (Segment.map .number)⟩ ∧
      ArgumentRule.color.Ends tail := by
  obtain ⟨hvalid, hempty⟩ := (read_invalid_eq_false_iff keyword cursor catalog _).mp hvalid
  have hp := hps p (List.mem_cons_self ..)
  -- The first channel is neither an operator nor a colour to be expanded.
  have hrest' : Segment.texts (p :: ps) ++ after = p.text ++ (Segment.texts ps ++ after) := by
    rw [Segment.texts_cons, List.append_assoc]
  have hoperator := operator_of_segments hop Spelling.operator_apart_number hp
    (matchNumber_reads.flush hp.spelled) (hrest.trans (congrArg _ hrest'))
  rw [← hrest'] at hoperator
  obtain ⟨qs, tail, hqs, hafter, hfits, hstop⟩ := exists_fits_of_color keyword cursor hop heq
    (p :: ps) hps hfour hrest hb hoperator (expandHex_of_number hp hrest') hvalid
  have hstop' : ArgumentRule.color.Stops ((p :: ps ++ qs).map (Segment.map Value.number)).length
      (cursor.pass (Phrase.text ⟨op, (p :: ps ++ qs).map (Segment.map .number)⟩) tail) := by
    rwa [Phrase.text, Phrase.lead, Segment.texts_map, List.length_map]
  have harguments : arguments catalog keyword .color cursor = _ :=
    arguments_of_fits keyword cursor hfits hstop'
  rw [harguments] at hvalid hempty
  exact ⟨qs, tail, hqs, hafter, hfits,
    (finish_valid_iff keyword _ (Phrase.invalid_outcome _ _) hfits.boundary).mp ⟨hvalid, hempty⟩⟩

/-- Behind the first channels of a colour the others have to follow, and the end. -/
theorem color_valid_iff (hop : ∀ p ∈ op, p.IsOf Spelling.operator)
    (heq : IsEquality (op.map Segment.value)) {p : Segment Int} {ps : List (Segment Int)}
    (hps : ∀ q ∈ p :: ps, q.IsOf Spelling.number)
    (hbounds : ∀ q ∈ p :: ps, channelBounds.contains q.value = true)
    (hfour : (p :: ps).length ≤ 4) {after : Text} (hb : atBoundary after = true)
    (hrest : cursor.rest = Segment.texts op.toList ++ (Segment.texts (p :: ps) ++ after)) :
    (read catalog keyword .color cursor).1.invalid = false ↔
      after ∈ channels (p :: ps).length * ArgumentRule.color.closing := by
  have hlength : ∀ qs : List (Segment Int), ((p :: ps ++ qs).map Segment.value).length =
      (p :: ps).length + (qs.map Segment.value).length := fun qs => by
    rw [List.map_append, List.length_append, List.length_map]
  rw [Language.mem_mul]
  constructor
  · intro hvalid
    obtain ⟨qs, tail, hqs, hafter, hfits, hends⟩ :=
      exists_fits_of_color_valid hop heq hps hfour hb hrest hvalid
    have hadmitted := hfits.admitted
    rw [Segment.map_value_map, admits_color_iff, hlength] at hadmitted
    obtain ⟨-, hthree, hle, hcontains⟩ := hadmitted
    have hcontains' : ∀ n ∈ qs.map Segment.value, channelBounds.contains n = true := fun n hn =>
      hcontains n (List.map_append ▸ List.mem_append_right _ hn)
    exact ⟨_, ⟨qs, hqs, ⟨hthree, hle, hcontains'⟩, rfl⟩, tail,
      ArgumentRule.mem_closing.mpr ⟨hfits.boundary, hends⟩, hafter.symm⟩
  · rintro ⟨_, ⟨qs, hqs, ⟨hthree, hle, hcontains⟩, rfl⟩, tail, hclosing, rfl⟩
    obtain ⟨htail, hends⟩ := ArgumentRule.mem_closing.mp hclosing
    have hadmits : ArgumentRule.color.Admits catalog (op.map Segment.value)
        (((p :: ps ++ qs).map Segment.value).map .number) := by
      rw [admits_color_iff, hlength, List.map_append, List.forall_mem_append]
      exact ⟨heq, hthree, hle, List.forall_mem_map.mpr hbounds, hcontains⟩
    exact read_valid_of_fits keyword cursor (fits_of_segments Spelling.number_makesValues hop
      (List.forall_mem_append.mpr ⟨hps, hqs⟩) hadmits hrest
      (by rw [Segment.texts_append, List.append_assoc]) htail) hends

/-- Behind a colour in hexadecimal the other channels have to follow, and the end. -/
theorem HexLine.valid_iff {p : Segment Text} {after : Text} (h : HexLine cursor.rest op p after)
    {n : Nat} (hn : p.lexeme.length = 2 * n + 1) :
    (read catalog keyword .color cursor).1.invalid = false ↔
      after ∈ channels n * ArgumentRule.color.closing := by
  obtain ⟨-, hcolor⟩ := h.color_eq keyword cursor
  obtain ⟨hlength, hbound, -⟩ := channelsOf_of_spelled h.hex.spelled
  have hnumbers := channelsOf_ne_nil h.hex.spelled
  generalize channelsOf p.lexeme = numbers at hcolor hlength hbound hnumbers
  have hfour : numbers.length ≤ 4 := by
    obtain ⟨digits, hdigits, -, hcount, -⟩ := h.hex.spelled
    rw [hdigits, List.length_cons] at hlength
    omega
  -- The expanded line is read alike, and its first channels are known.
  have hread := congrArg Prod.fst (read_withoutEdits catalog .color hcolor)
  dsimp only at hread
  rw [← Outcome.invalid_withoutEdits, ← hread]
  have hsegments := channelSegments_isOf h.hex.blank h.hex.gap_ne_nil hbound
  have hcount := length_channelSegments p.gap numbers
  have hvalues : ∀ q ∈ channelSegments p.gap numbers, channelBounds.contains q.value = true := by
    intro q hq
    obtain ⟨m, hm, hvalue⟩ := value_of_mem_channelSegments hq
    have hlt := hbound m hm
    rw [hvalue, Bounds.contains_iff]
    simp only [channelBounds]
    omega
  rw [← texts_channelSegments p.gap hnumbers]
  obtain ⟨q, qs, hqs⟩ : ∃ q qs, channelSegments p.gap numbers = q :: qs :=
    List.exists_cons_of_length_pos (hcount ▸ List.length_pos_iff.mpr hnumbers)
  rw [hqs] at hsegments hvalues hcount ⊢
  obtain rfl : n = (q :: qs).length := by omega
  exact color_valid_iff h.operator h.equality hsegments hvalues (hcount ▸ hfour) h.boundary rfl

end Rule

/-! ## Colours -/

namespace Grammar

theorem hex_eq_lexemes {n : Nat} (h : n = 6 ∨ n = 8) :
    hex n = lexemes Spelling.hex fun value => value.length = n + 1 := by
  ext text
  constructor
  · rintro ⟨digits, rfl, rfl, hall⟩
    exact ⟨_, ⟨digits, rfl, hall, h, rfl⟩, rfl⟩
  · rintro ⟨_, ⟨digits, rfl, hall, -, rfl⟩, hlength⟩
    exact ⟨digits, rfl, Nat.succ.inj hlength, hall⟩

/-- A colour in hexadecimal and the channels behind it. -/
theorem gap_mul_hexColor :
    gap * hexColor = gap * hex 6 * channels 3 + gap * hex 8 * channels 4 := by
  rw [hexColor, channels_three, channels_four, mul_one, mul_add, mul_assoc]

theorem atBoundary_of_mem_channels {n : Nat} {after : Text}
    (h : after ∈ channels n * ArgumentRule.color.closing) : atBoundary after = true := by
  obtain ⟨_, ⟨ps, hps, -, rfl⟩, tail, hclosing, rfl⟩ := Language.mem_mul.mp h
  exact Segment.atBoundary_texts hps (ArgumentRule.mem_closing.mp hclosing).1

theorem mem_hex_iff {rest : Text} {n : Nat} (hn : n = 3 ∨ n = 4) :
    rest ∈ optional (gap * equality) *
        (gap * hex (2 * n) * (channels n * ArgumentRule.color.closing)) ↔
      ∃ op p after, Rule.HexLine rest op p after ∧ p.lexeme.length = 2 * n + 1 ∧
        after ∈ channels n * ArgumentRule.color.closing := by
  rw [equality_eq_lexemes, hex_eq_lexemes (by omega), Language.mem_mul]
  simp only [mem_optional_operator]
  constructor
  · rintro ⟨_, ⟨op, hop, hequality, rfl⟩, _, hright, rfl⟩
    obtain ⟨_, hhex, after, hafter, rfl⟩ := Language.mem_mul.mp hright
    obtain ⟨p, hp, hlength, rfl⟩ := mem_gap_mul_lexemes.mp hhex
    obtain ⟨digits, hlexeme, hall, hcount, hvalue⟩ := hp.spelled
    exact ⟨op, p, after, ⟨hop, hequality, hp, atBoundary_of_mem_channels hafter, rfl⟩,
      hvalue ▸ hlength, hafter⟩
  · rintro ⟨op, p, after, h, hlength, hafter⟩
    obtain ⟨digits, hlexeme, hall, hcount, hvalue⟩ := h.hex.spelled
    exact ⟨_, ⟨op, h.operator, h.equality, rfl⟩, _, Language.append_mem_mul
      (mem_gap_mul_lexemes.mpr ⟨p, h.hex, hvalue ▸ hlength, rfl⟩) hafter, h.rest_eq.symm⟩

/-- A line with a colour in hexadecimal has to be expanded, and other channels may follow. -/
theorem mem_hexColor_iff {rest : Text} :
    rest ∈ optional (gap * equality) * (gap * hexColor * ArgumentRule.color.closing) ↔
      ∃ op p after n, Rule.HexLine rest op p after ∧ p.lexeme.length = 2 * n + 1 ∧
        after ∈ channels n * ArgumentRule.color.closing := by
  rw [gap_mul_hexColor, add_mul, mul_add, Language.mem_add, mul_assoc _ (channels 3),
    mul_assoc _ (channels 4), show 6 = 2 * 3 from rfl, show 8 = 2 * 4 from rfl,
    mem_hex_iff (Or.inl rfl), mem_hex_iff (Or.inr rfl)]
  constructor
  · rintro (⟨op, p, after, h⟩ | ⟨op, p, after, h⟩)
    · exact ⟨op, p, after, 3, h⟩
    · exact ⟨op, p, after, 4, h⟩
  · rintro ⟨op, p, after, n, h, hlength, hafter⟩
    obtain ⟨digits, hlexeme, -, hcount, -⟩ := h.hex.spelled
    -- a colour that was read has six or eight digits
    have hdigits : digits.length = 2 * n := by
      rw [hlexeme, List.length_cons] at hlength
      exact Nat.succ.inj hlength
    obtain rfl | rfl : n = 3 ∨ n = 4 := by omega
    · exact Or.inl ⟨op, p, after, h, hlength, hafter⟩
    · exact Or.inr ⟨op, p, after, h, hlength, hafter⟩

/-- A line with a colour, its operator taken to the front. -/
theorem gap_mul_color_mul_blank (catalog : Catalog) :
    gap * ArgumentRule.color.grammar catalog * blank =
      optional (gap * equality) * (gap * hexColor * ArgumentRule.color.closing) +
        optional (gap * equality) * (gap * decimalColor * ArgumentRule.color.closing) := by
  rw [ArgumentRule.grammar, mul_assoc, mul_assoc, mul_assoc, gap_mul_optional, ← mul_assoc gap,
    mul_add gap, add_mul, mul_add]
  rfl

end Grammar

/-! ## Lines -/

/-- The arguments of a rule are valid, with nothing left over, if they belong to the grammar. -/
theorem Rule.read_valid_iff_mem (catalog : Catalog) (keyword : Keyword) {rule : ArgumentRule}
    (hrule : rule.IsBounded) (cursor : Cursor) (hb : atBoundary cursor.rest = true) :
    (read catalog keyword rule cursor).1.invalid = false ↔
      cursor.rest ∈ gap * rule.grammar catalog * blank := by
  -- Only a colour has words that are no phrases: those that have to be expanded.
  by_cases hcolor : rule = .color
  · subst hcolor
    rw [gap_mul_color_mul_blank, Language.mem_add, mem_hexColor_iff,
      ← ArgumentRule.exists_fits_color_iff_mem catalog]
    constructor
    · intro hvalid
      by_cases hedits : (arguments catalog keyword .color cursor).1.edits = []
      · exact Or.inr ((read_valid_iff keyword cursor hb hedits).mp hvalid)
      · obtain ⟨op, p, after, h⟩ := exists_hexLine hb hedits
        obtain ⟨hlength, -⟩ := channelsOf_of_spelled h.hex.spelled
        exact Or.inl ⟨op, p, after, _, h, hlength, (h.valid_iff hlength).mp hvalid⟩
    · rintro (⟨op, p, after, n, h, hlength, hafter⟩ | ⟨r, tail, hfits, hends⟩)
      · exact (h.valid_iff hlength).mpr hafter
      · exact read_valid_of_fits keyword cursor hfits hends
  · have hedits := (isPlain_arguments keyword cursor catalog rule).unedited
      (beq_eq_false_iff_ne.mpr hcolor)
    rw [read_valid_iff keyword cursor hb hedits, ArgumentRule.exists_fits_iff_mem hrule hcolor]

namespace Classifier

/-- A line that starts with the keyword of a rule is that rule, and has no error exactly if the rest
of it belongs to the grammar of the rule. -/
theorem parse_rule_valid_iff (c : Classifier) (location : Location) {line : Text}
    (hline : ∀ x ∈ line, breaksLine x = false) {keyword : Keyword} {category : Category}
    {rule : ArgumentRule} (hkind : keyword.kind = .rule category rule)
    (hchunk : Text.chunk line = keyword.name.toList) :
    ∃ result parsed, c.parse location line = .ok result ∧ result.kind = .rule parsed ∧
      parsed.keyword.value = keyword ∧ parsed.category = category ∧
      (result.invalid = false ↔
        Text.afterChunk line ∈ gap * rule.grammar c.catalog * blank) := by
  have hsplit : line = leading line ++ keyword.name.toList ++ afterChunk line := by
    rw [List.append_assoc, ← hchunk]
    exact eq_leading_append_chunk line
  have hboundary := atBoundary_afterChunk line
  rw [c.parse_of_unbroken location hline,
    c.classify_rule hkind hsplit (allBlank_leading line) hboundary, ruleLine_eq]
  refine ⟨_, _, rfl, rfl, rfl, rfl, ?_⟩
  rw [LineResult.invalid_place]
  exact Rule.read_valid_iff_mem c.catalog keyword (ArgumentRule.isBounded_of_kind hkind)
    ⟨leading line ++ keyword.name.toList, afterChunk line, extent line⟩ hboundary

set_option maxRecDepth 4000 in
/-- A colour in hexadecimal with its alpha channel and a comment belongs to the grammar. -/
theorem parse_rule_valid_hex :
    (parse ⟨{}, true⟩ {} "SetTextColor #ff000a 128 # red".toList).toOption.map
        LineResult.invalid = some false ∧
      " #ff000a 128 # red".toList ∈ gap * ArgumentRule.color.grammar {} * blank := by
  have hvalid : (parse ⟨{}, true⟩ {} "SetTextColor #ff000a 128 # red".toList).toOption.map
      LineResult.invalid = some false := by decide
  have hkind : Keyword.setTextColor.kind = .rule .action .color := rfl
  have hchunk : Text.chunk "SetTextColor #ff000a 128 # red".toList =
      Keyword.setTextColor.name.toList := by decide
  have hline : Unbroken "SetTextColor #ff000a 128 # red".toList := unbroken_iff.mpr (by decide)
  obtain ⟨result, -, hparse, -, -, -, hiff⟩ := parse_rule_valid_iff ⟨{}, true⟩ {} hline hkind hchunk
  refine ⟨hvalid, ?_⟩
  rw [hparse] at hvalid
  exact hiff.mp (Option.some.inj hvalid)

end Classifier

end ItemFilter
