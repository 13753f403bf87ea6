import ItemFilter.Proofs.HexExpansion
import ItemFilter.Proofs.Outcomes

/-!
# Phrases

A phrase takes the arguments of a rule apart into an operator and values, as they stand in the
line. What phrases a rule admits is said without the cursor. A phrase whose values are tokens of
one class is a row of segments of that class, and reading these tokens is how the cursor finds it.

## Main definitions

* `Phrase`: an operator and values as they stand in a line
* `ArgumentRule.Admits`: the operators and values that a rule admits
* `ArgumentRule.Ends`: what may follow the arguments of a rule
* `Phrase.Fits`: a phrase a rule admits, at the start of a text

## Main results

* `Rule.read_of_fits`: an operator and a value are read from a line that holds them
* `Rule.exists_fits_of_read`: an operator and a value that were read are a phrase
-/

namespace ItemFilter

open Text
open Cursor hiding read

variable {α β : Type}

/-! ## Values -/

namespace Spelling

/-- A value is written like the tokens of its class, and a string is no comment. -/
def value : Spelling Value := fun lexeme v =>
  match v with
  | .number n => number lexeme n
  | .boolean b => boolean lexeme b
  | .text t => argument lexeme t

theorem value_flush {lexeme : Text} {v : Value} (h : value lexeme v) : IsFlush lexeme := by
  cases v with
  | number n => exact matchNumber_reads.flush h
  | boolean b => exact matchBoolean_reads.flush h
  | text t => exact matchString_reads.flush h.1

theorem operator_apart_value : operator.Apart value := by
  intro lexeme op lexeme' v hop hv
  cases v with
  | number n => exact operator_apart_number hop hv
  | boolean b => exact operator_apart_boolean hop hv
  | text t => exact operator_apart_string hop hv.1

/-- The values that are made from the tokens of a class are written like these tokens. -/
def MakesValues (spelling : Spelling α) (f : α → Value) : Prop :=
  ∀ lexeme a, value lexeme (f a) ↔ spelling lexeme a

theorem number_makesValues : number.MakesValues .number := fun _ _ => Iff.rfl

theorem boolean_makesValues : boolean.MakesValues .boolean := fun _ _ => Iff.rfl

theorem argument_makesValues : argument.MakesValues .text := fun _ _ => Iff.rfl

end Spelling

/-- A string that is no comment. -/
def matchArgument : Matcher Text := fun text =>
  if text.head? = some '#' then none else matchString text

theorem matchArgument_reads : Matcher.Reads matchArgument Spelling.argument where
  flush h := matchString_reads.flush h.1
  complete := by
    rintro lexeme value after ⟨hstring, hhead⟩ hb
    rw [matchArgument, (matchString_reads.flush hstring).head?_append, if_neg hhead]
    exact matchString_reads.complete hstring hb
  sound := by
    intro text n value h hne hb
    unfold matchArgument at h
    split at h
    · cases h
    · next hhead =>
      refine ⟨matchString_reads.sound h hne hb, fun h => hhead ?_⟩
      rwa [List.head?_take, if_neg] at h
      rintro rfl
      exact hne rfl

/-- Reading an argument is reading a token of a class like any other. -/
theorem Rule.argument_eq_read (cursor : Cursor) :
    Rule.argument cursor = Cursor.read matchArgument cursor := by
  unfold Rule.argument
  split
  · next h =>
    refine (read_of_scan?_eq_none ?_).symm
    simp [scan?, matchArgument, isCommented_iff.mp h]
  · next h =>
    have hhead := mt isCommented_iff.mpr h
    simp [Cursor.string, Cursor.read, scan?, matchArgument, hhead]

@[simp] theorem Segment.map_value_token (before : Text) (op : Option (Segment α)) :
    (op.map (Segment.token before)).map Located.value = op.map Segment.value := by
  cases op <;> rfl

/-- A segment of a class of tokens is a segment with a value. -/
theorem Segment.IsOf.map {spelling : Spelling α} {f : α → Value} (hf : spelling.MakesValues f)
    {p : Segment α} (hp : p.IsOf spelling) : (p.map f).IsOf Spelling.value :=
  ⟨hp.blank, hp.gap_ne_nil, (hf _ _).mpr hp.spelled⟩

/-- Segments with values of one class are segments of that class. -/
theorem Segment.exists_map_eq {spelling : Spelling α} {f : α → Value} (hf : spelling.MakesValues f)
    {ps : List (Segment Value)} (hps : ∀ p ∈ ps, p.IsOf Spelling.value) {values : List α}
    (h : ps.map Segment.value = values.map f) :
    ∃ qs : List (Segment α), ps = qs.map (Segment.map f) ∧ qs.map Segment.value = values ∧
      ∀ q ∈ qs, q.IsOf spelling := by
  -- Induction on the values, which determine the class of each segment.
  induction values generalizing ps with
  | nil => exact ⟨[], List.map_eq_nil_iff.mp h, rfl, by simp⟩
  | cons a values ih =>
    obtain ⟨p, ps, rfl, hp, hmap⟩ := List.map_eq_cons_iff.mp h
    obtain ⟨qs, rfl, hvalues, hqs⟩ := ih (fun q hq => hps q (List.mem_cons_of_mem _ hq)) hmap
    obtain ⟨hblank, hne, hspelled⟩ := hps p (List.mem_cons_self ..)
    refine ⟨⟨p.gap, p.lexeme, a⟩ :: qs, ?_, ?_, List.forall_mem_cons.mpr ⟨⟨hblank, hne, ?_⟩, hqs⟩⟩
    · simp [Segment.map, ← hp]
    · simp [hvalues]
    · rw [hp] at hspelled
      exact (hf _ _).mp hspelled

/-! ## Phrases -/

/-- The arguments of a rule as they stand in a line. -/
structure Phrase where
  /-- The operator, if there is one. -/
  operator : Option (Segment Operator)
  /-- The values behind it. -/
  values : List (Segment Value)

namespace Phrase

/-- The characters of the operator. -/
def lead (r : Phrase) : Text :=
  Segment.texts r.operator.toList

/-- The characters of a phrase. -/
def text (r : Phrase) : Text :=
  r.lead ++ Segment.texts r.values

/-- The outcome of a phrase that stands behind the text `before`. -/
def outcome (before : Text) (r : Phrase) : Outcome :=
  { operator := r.operator.map (Segment.token before)
    values := Segment.tokens (before ++ r.lead) r.values }

@[simp] theorem invalid_outcome (before : Text) (r : Phrase) :
    (r.outcome before).invalid = false := rfl

/-- The operator of the outcome is that of the phrase. -/
theorem map_operator_outcome (before : Text) (r : Phrase) :
    (r.outcome before).operator.map Located.value = r.operator.map Segment.value := by
  rw [outcome, Segment.map_value_token]

end Phrase

/-- Whether an operator is `=`, if there is one. -/
def IsEquality (operator : Option Operator) : Prop :=
  ∀ op ∈ operator, op = .equal

namespace ArgumentRule

open Rule

/-- The operators and values that a rule admits. -/
def Admits (catalog : Catalog) (operator : Option Operator) (values : List Value) :
    ArgumentRule → Prop
  | .range bounds allowed =>
    (operator = none ∨ allowed = true) ∧ ∃ n, values = [.number n] ∧ bounds.contains n = true
  | .boolean => IsEquality operator ∧ ∃ b, values = [.boolean b]
  | .oneOf allowed =>
    ∃ word, values = [.text word] ∧ ∃ choice ∈ allowed, sameIgnoringCase choice.toList word = true
  | .operatorNumber allowed => ∃ n, values = [.number n] ∧ n ∈ allowed
  | .socketGroup => IsEquality operator ∧ ∃ word, values = [.text word] ∧ isSocketGroup word = true
  | .catalogList names =>
    IsEquality operator ∧ ∃ words : List Text, values = words.map .text ∧ words ≠ [] ∧
      ∀ word ∈ words, isKnownName (catalog.names names) word = true
  | .color =>
    IsEquality operator ∧ ∃ numbers : List Int, values = numbers.map .number ∧
      3 ≤ numbers.length ∧ numbers.length ≤ 4 ∧ ∀ n ∈ numbers, channelBounds.contains n = true
  | .alertSound =>
    IsEquality operator ∧ ∃ numbers : List Int, values = numbers.map .number ∧ numbers ≠ [] ∧
      numbers.length ≤ 2 ∧
      ∀ n ∈ numbers.zip [soundBounds, volumeBounds], n.2.contains n.1 = true

/-- Whether a comment may follow the arguments. -/
def allowsComment : ArgumentRule → Bool
  | .color | .alertSound => true
  | _ => false

/-- What is done with a comment behind arguments that were read. -/
def finish (keyword : Keyword) (rule : ArgumentRule) (outcome : Outcome) (cursor : Cursor) :
    Outcome × Cursor :=
  if rule.allowsComment then outcome.captureComment cursor
  else outcome.rejectComment keyword cursor

/-- Whether a rule that has read `count` values reads none of what stands in front of the cursor. -/
def Stops (count : Nat) (cursor : Cursor) : ArgumentRule → Prop
  | .catalogList _ => cursor.arguments = ([], cursor)
  | .color => cursor.numbers (4 - count) = ([], cursor)
  | .alertSound => cursor.numbers (2 - count) = ([], cursor)
  | _ => True

/-- A text that holds no further arguments stops every rule. -/
theorem stops_of_isClosed (rule : ArgumentRule) (count : Nat) (cursor : Cursor)
    (h : IsClosed cursor.rest) : rule.Stops count cursor := by
  cases rule with
  | catalogList names => exact arguments_of_isClosed h
  | color => exact numbers_of_isClosed _ h
  | alertSound => exact numbers_of_isClosed _ h
  | _ => trivial

/-- White space, and a comment where one is allowed, may follow the arguments. -/
def Ends (rule : ArgumentRule) (tail : Text) : Prop :=
  allBlank tail = true ∨ rule.allowsComment = true ∧ (trimStart tail).head? = some '#'

theorem Ends.isClosed {rule : ArgumentRule} {tail : Text} (h : rule.Ends tail) : IsClosed tail :=
  h.elim isClosed_of_allBlank fun h => isClosed_of_head h.2

end ArgumentRule

/-- A phrase that a rule admits stands at the start of a text, with something else behind it. -/
structure Phrase.Fits (catalog : Catalog) (rule : ArgumentRule) (rest tail : Text)
    (r : Phrase) : Prop where
  /-- The operator is a segment of the line. -/
  operator : ∀ p ∈ r.operator, p.IsOf Spelling.operator
  /-- The values are segments of the line. -/
  values : ∀ p ∈ r.values, p.IsOf Spelling.value
  /-- The rule admits the operator and the values. -/
  admitted : rule.Admits catalog (r.operator.map Segment.value) (r.values.map Segment.value)
  /-- The phrase ends at a boundary. -/
  boundary : atBoundary tail = true
  /-- The phrase and what is behind it make up the text. -/
  rest_eq : rest = r.text ++ tail

/-- What follows a phrase may be exchanged. -/
theorem Phrase.Fits.exchange {catalog : Catalog} {rule : ArgumentRule} {rest tail : Text}
    {r : Phrase} (h : r.Fits catalog rule rest tail) (other : Text)
    (hb : atBoundary other = true) : r.Fits catalog rule (r.text ++ other) other :=
  ⟨h.operator, h.values, h.admitted, hb, rfl⟩

/-- More text may stand behind what follows a phrase. -/
theorem Phrase.Fits.extend {catalog : Catalog} {rule : ArgumentRule} {rest tail suffix : Text}
    {r : Phrase} (h : r.Fits catalog rule rest tail) (hb : atBoundary suffix = true) :
    r.Fits catalog rule (rest ++ suffix) (tail ++ suffix) where
  operator := h.operator
  values := h.values
  admitted := h.admitted
  boundary := atBoundary_append_append h.boundary hb
  rest_eq := by rw [h.rest_eq, List.append_assoc]

/-- A phrase starts at a boundary if it ends at one. -/
theorem Phrase.Fits.atBoundary_text {catalog : Catalog} {rule : ArgumentRule} {rest tail : Text}
    {r : Phrase} (h : r.Fits catalog rule rest tail) (other : Text)
    (hb : atBoundary other = true) : atBoundary (r.text ++ other) = true := by
  rw [Phrase.text, List.append_assoc]
  exact Segment.atBoundary_texts (fun p hp => h.operator p (by simpa using hp))
    (Segment.atBoundary_texts h.values hb)

/-! ## Operators -/

section Operator

variable {cursor : Cursor}

/-- Whatever the cursor stands in front of, it passes an operator or nothing. -/
theorem exists_segments_of_operator (hb : atBoundary cursor.rest = true) :
    ∃ (op : Option (Segment Operator)) (after : Text), (∀ p ∈ op, p.IsOf Spelling.operator) ∧
      cursor.rest = Segment.texts op.toList ++ after ∧ atBoundary after = true ∧
      cursor.operator =
        (op.map (Segment.token cursor.consumed), cursor.pass (Segment.texts op.toList) after) := by
  cases hread : cursor.operator with
  | mk found next =>
    cases found with
    | none =>
      have hsame : next = cursor := (scan?_of_read_eq_none hread).2
      exact ⟨none, cursor.rest, nofun, rfl, hb, by simp [hsame]⟩
    | some token =>
      obtain ⟨p, after, hp, hrest, hafter, rfl, rfl⟩ :=
        exists_segment_of_read matchOperator_reads hb hread
      exact ⟨some p, after, fun q hq => Option.mem_some_iff.mp hq ▸ hp, by simpa using hrest,
        hafter, by simp⟩

/-- An operator, or none, is passed if what stands behind it starts otherwise. -/
theorem operator_of_segments {op : Option (Segment Operator)}
    (hop : ∀ p ∈ op, p.IsOf Spelling.operator) {spelling : Spelling β}
    (hapart : Spelling.operator.Apart spelling) {p : Segment β} (hp : p.IsOf spelling)
    (hflush : IsFlush p.lexeme) {after : Text}
    (hrest : cursor.rest = Segment.texts op.toList ++ (p.text ++ after)) :
    cursor.operator = (op.map (Segment.token cursor.consumed),
      cursor.pass (Segment.texts op.toList) (p.text ++ after)) := by
  -- Without an operator, what stands behind it must not be taken for one.
  cases op with
  | none =>
    have hsame : cursor.pass [] (p.text ++ after) = cursor := by
      rw [show p.text ++ after = cursor.rest from hrest.symm, pass_nil]
    rw [Cursor.operator, read_of_apart matchOperator_reads hapart hp hflush hrest]
    simp [hsame]
  | some q =>
    have hread := (hop q rfl).read matchOperator_reads cursor (by simpa using hrest)
      (hp.atBoundary after)
    simpa [Cursor.operator] using hread

/-- Behind `=`, or no operator at all, the arguments are read. -/
theorem withEquality_of_isEquality {keyword : Keyword} {operator : Option (Token Operator)}
    {next : Cursor} (h : cursor.operator = (operator, next))
    (heq : IsEquality (operator.map Located.value))
    (arguments : Option (Token Operator) → Cursor → Outcome × Cursor) :
    Outcome.withEquality keyword cursor arguments = arguments operator next := by
  rw [Outcome.withEquality, h]
  cases operator with
  | none => rfl
  | some op => exact if_pos (heq op.value rfl)

/-- Behind another operator than `=` nothing is read. -/
theorem withEquality_of_not_isEquality (keyword : Keyword) {operator : Option (Token Operator)}
    {next : Cursor} (h : cursor.operator = (operator, next))
    (hne : ¬ IsEquality (operator.map Located.value))
    (arguments : Option (Token Operator) → Cursor → Outcome × Cursor) :
    ∃ span, Outcome.withEquality keyword cursor arguments =
      ({ diagnostics := [Outcome.badOperator keyword span] }, next) := by
  rw [Outcome.withEquality, h]
  cases operator with
  | none => exact absurd nofun hne
  | some op =>
    have hvalue : op.value ≠ .equal := fun heq => hne fun value hop => by
      rw [← heq]
      exact (Option.mem_some_iff.mp hop).symm
    exact ⟨op.range, if_neg hvalue⟩

/-- Another operator than `=` is an error. -/
theorem isEquality_of_withEquality {keyword : Keyword} {operator : Option (Token Operator)}
    {next : Cursor} (h : cursor.operator = (operator, next))
    {arguments : Option (Token Operator) → Cursor → Outcome × Cursor}
    (hvalid : (Outcome.withEquality keyword cursor arguments).1.invalid = false) :
    IsEquality (operator.map Located.value) := by
  by_contra hne
  obtain ⟨span, hbad⟩ := withEquality_of_not_isEquality keyword h hne arguments
  simp [hbad, Outcome.badOperator, Diagnostic.isError] at hvalid

end Operator

/-! ## From phrases to tokens and back -/

namespace Rule

variable {catalog : Catalog} {cursor : Cursor} {tail : Text} {r : Phrase}

/-- A phrase whose values are tokens of one class. -/
theorem exists_segments_of_fits {spelling : Spelling α} {f : α → Value}
    (hf : spelling.MakesValues f) {rule : ArgumentRule} {rest : Text}
    (h : r.Fits catalog rule rest tail) {values : List α}
    (hvalues : r.values.map Segment.value = values.map f) :
    ∃ ps : List (Segment α), r.values = ps.map (Segment.map f) ∧ ps.map Segment.value = values ∧
      (∀ p ∈ ps, p.IsOf spelling) ∧
      rest = Segment.texts r.operator.toList ++ (Segment.texts ps ++ tail) := by
  obtain ⟨ps, hps, hmap, hspelled⟩ := Segment.exists_map_eq hf h.values hvalues
  refine ⟨ps, hps, hmap, hspelled, ?_⟩
  rw [h.rest_eq, Phrase.text, Phrase.lead, hps, Segment.texts_map, List.append_assoc]

/-- A phrase whose only value is a token of one class. -/
theorem exists_segment_of_fits {spelling : Spelling α} {f : α → Value}
    (hf : spelling.MakesValues f) {rule : ArgumentRule} {rest : Text}
    (h : r.Fits catalog rule rest tail) {a : α} (hvalues : r.values.map Segment.value = [f a]) :
    ∃ p : Segment α, r.values = [p.map f] ∧ p.value = a ∧ p.IsOf spelling ∧
      rest = Segment.texts r.operator.toList ++ (p.text ++ tail) := by
  obtain ⟨ps, hps, hmap, hspelled, hrest⟩ :=
    exists_segments_of_fits hf h (hvalues.trans List.map_singleton.symm)
  obtain ⟨p, qs, rfl, hp, hqs⟩ := List.map_eq_cons_iff.mp hmap
  obtain rfl := List.map_eq_nil_iff.mp hqs
  exact ⟨p, hps, hp, hspelled p (List.mem_singleton_self p), by simpa using hrest⟩

/-- An operator and tokens of one class are a phrase. -/
theorem fits_of_segments {spelling : Spelling α} {f : α → Value} (hf : spelling.MakesValues f)
    {rule : ArgumentRule} {op : Option (Segment Operator)}
    (hop : ∀ p ∈ op, p.IsOf Spelling.operator) {ps : List (Segment α)}
    (hps : ∀ p ∈ ps, p.IsOf spelling)
    (hadmits : rule.Admits catalog (op.map Segment.value) ((ps.map Segment.value).map f))
    {rest after : Text} (hrest : rest = Segment.texts op.toList ++ after)
    (hafter : after = Segment.texts ps ++ tail) (hb : atBoundary tail = true) :
    Phrase.Fits catalog rule rest tail ⟨op, ps.map (Segment.map f)⟩ where
  operator := hop
  values := by
    intro p hp
    obtain ⟨q, hq, rfl⟩ := List.mem_map.mp hp
    exact (hps q hq).map hf
  admitted := by
    convert hadmits using 1
    simp
  boundary := hb
  rest_eq := by simp [hrest, hafter, Phrase.text, Phrase.lead]

/-- The operator and the only value of a phrase are read from the line. -/
theorem read_of_fits {m : Matcher α} {spelling : Spelling α} (hm : m.Reads spelling)
    {f : α → Value} (hf : spelling.MakesValues f) {rule : ArgumentRule}
    (h : r.Fits catalog rule cursor.rest tail) {a : α}
    (hvalues : r.values.map Segment.value = [f a]) :
    ∃ token next, cursor.operator = ((r.outcome cursor.consumed).operator, next) ∧
      Cursor.read m next = (some token, cursor.pass r.text tail) ∧ token.value = a ∧
      r.outcome cursor.consumed =
        { operator := (r.outcome cursor.consumed).operator, values := [token.map f] } := by
  obtain ⟨p, hp, rfl, hspelled, hrest⟩ := exists_segment_of_fits hf h hvalues
  have hoperator := operator_of_segments h.operator Spelling.operator_apart_value (hspelled.map hf)
    (hm.flush hspelled.spelled) hrest
  have hread := hspelled.read hm
    (cursor.pass (Segment.texts r.operator.toList) (p.text ++ tail)) rfl h.boundary
  refine ⟨p.token (cursor.consumed ++ r.lead), _, hoperator, ?_, rfl, ?_⟩
  · simpa [Phrase.text, Phrase.lead, hp] using hread
  · simp [Phrase.outcome, hp]

/-- An operator and a value that were read are a phrase. -/
theorem exists_fits_of_read {m : Matcher α} {spelling : Spelling α} (hm : m.Reads spelling)
    {f : α → Value} (hf : spelling.MakesValues f) {rule : ArgumentRule}
    (hb : atBoundary cursor.rest = true) {operator : Option (Token Operator)} {token : Token α}
    {next last : Cursor} (hoperator : cursor.operator = (operator, next))
    (hread : Cursor.read m next = (some token, last))
    (hadmits : rule.Admits catalog (operator.map Located.value) [f token.value]) :
    ∃ r tail, Phrase.Fits catalog rule cursor.rest tail r := by
  -- What was passed by both reads is taken for the segments of the phrase.
  obtain ⟨op, after, hop, hrest, hafter, hsegments⟩ := exists_segments_of_operator hb
  obtain ⟨rfl, rfl⟩ := Prod.mk.inj (hoperator.symm.trans hsegments)
  obtain ⟨p, tail, hp, hafter', htail, rfl, -⟩ := exists_segment_of_read hm hafter hread
  rw [Segment.map_value_token] at hadmits
  exact ⟨_, tail, fits_of_segments hf hop (List.forall_mem_singleton.mpr hp) hadmits hrest
    (by simpa using hafter') htail⟩

end Rule

end ItemFilter
