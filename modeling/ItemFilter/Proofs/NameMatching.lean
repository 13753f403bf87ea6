import ItemFilter.Proofs.Whitelisting

/-!
# Parts of names

A value is looked for in the names of a set with both of them in lower case. Lower-casing goes
character by character but for one letter: a capital sigma becomes a final sigma where it ends a
word. A part of a name that is cut off behind a sigma ends a word there, while the name may go on,
and then the lower-case form of the part does not occur in that of the name. Whether a part is found
in its name comes down to the sigmas that end a word in one of the two and not in the other.

## Main definitions

* `NameSet.Built`: the sets that names are added to
* `Text.endsWord`: whether a sigma between two texts ends a word
* `Text.KeepsSigmas`: a part of a text whose sigmas end words in both or in neither
* `Text.lowercaseIn`: the lower-case form of a part of a text

## Main results

* `NameSet.occursIn_iff`: a text occurs in another as a contiguous part of it
* `Text.lowercase_append`: the lower-case form of a text is that of its parts in their place
* `Text.lowercaseIn_eq_lowercase_iff`: when a part keeps its lower-case form in its place
* `NameSet.covers_part`: a part of a name that keeps its sigmas is covered, in any case
-/

namespace ItemFilter

open Text

/-! ## Sets of names -/

namespace NameSet

/-- The sets that come from the empty one by adding names. -/
inductive Built : NameSet → Prop
  /-- The empty set. -/
  | empty : Built {}
  /-- A set with further names. -/
  | extend {set : NameSet} (h : Built set) (names : List Text) : Built (set.extend names)

/-- A name that is added is kept with its lower-case form. -/
theorem folded_of_insert {set : NameSet}
    (h : ∀ entry ∈ set.entries, entry.folded = lowercase entry.name) (name : Text) :
    ∀ entry ∈ (set.insert name).entries, entry.folded = lowercase entry.name := by
  unfold insert
  dsimp only
  split
  · exact h
  · exact List.forall_mem_append.mpr ⟨h, List.forall_mem_singleton.mpr rfl⟩

theorem folded_of_extend {set : NameSet}
    (h : ∀ entry ∈ set.entries, entry.folded = lowercase entry.name) (names : List Text) :
    ∀ entry ∈ (set.extend names).entries, entry.folded = lowercase entry.name := by
  -- Induction on the names, the set growing with each.
  induction names generalizing set with
  | nil => exact h
  | cons name names ih => exact ih (folded_of_insert h name)

/-- Every name of a set is kept with its lower-case form. -/
theorem Built.folded_eq {set : NameSet} (h : set.Built) :
    ∀ entry ∈ set.entries, entry.folded = lowercase entry.name := by
  induction h with
  | empty => exact List.forall_mem_nil _
  | extend _ names ih => exact folded_of_extend ih names

/-- A text occurs in another if it is a contiguous part of it. -/
theorem occursIn_iff {needle text : Text} : occursIn needle text = true ↔ needle <:+: text := by
  induction text with
  | nil => simp [occursIn]
  | cons c text ih =>
    rw [occursIn, Bool.or_eq_true, List.isPrefixOf_iff_prefix, ih, List.infix_cons_iff]

end NameSet

/-! ## Parts in lower case -/

namespace Text

/-- Whether a sigma between two texts ends a word. The text before it starts with the nearest
character. -/
def endsWord (before after : Text) : Bool :=
  nextIsCased before && !nextIsCased after

/-- The lower-case form that a part has between the texts `before` and `after`. The text before it
starts with the nearest character. -/
def lowercaseIn (before after : Text) : Text → Text
  | [] => []
  | c :: part =>
    (if c = 'Σ' then if endsWord before (part ++ after) then ['ς'] else ['σ'] else lowerChar c) ++
      lowercaseIn (c :: before) after part

/-- The lower-case form of a text is that of its parts in their place. -/
theorem lowercaseAfter_append (before part after : Text) :
    lowercaseAfter before (part ++ after) =
      lowercaseIn before after part ++ lowercaseAfter (part.reverse ++ before) after := by
  induction part generalizing before with
  | nil => rfl
  | cons c part ih =>
    rw [List.cons_append, lowercaseAfter, ih, lowercaseIn, List.append_assoc, List.reverse_cons,
      List.append_assoc]
    rfl

/-- Wherever a list is split at an element, this is its first element or one of the others. -/
theorem forall_split_cons {α : Type} {c x : α} {part : List α} {P : List α → List α → Prop} :
    (∀ left right, c :: part = left ++ x :: right → P left right) ↔
      (c = x → P [] part) ∧ ∀ left right, part = left ++ x :: right → P (c :: left) right := by
  constructor
  · intro h
    refine ⟨?_, fun left right hpart => h (c :: left) right (by rw [hpart, List.cons_append])⟩
    rintro rfl
    exact h [] part rfl
  · rintro ⟨hfirst, hothers⟩ left right hsplit
    cases left with
    | nil =>
      obtain ⟨rfl, rfl⟩ := List.cons.inj hsplit
      exact hfirst rfl
    | cons d left =>
      obtain ⟨rfl, hpart⟩ := List.cons.inj hsplit
      exact hothers left right hpart

/-- A part has the same lower-case form in two places if the same of its sigmas end a word. -/
theorem lowercaseIn_eq_iff {before before' after after' part : Text} :
    lowercaseIn before after part = lowercaseIn before' after' part ↔
      ∀ left right, part = left ++ 'Σ' :: right →
        endsWord (left.reverse ++ before) (right ++ after) =
          endsWord (left.reverse ++ before') (right ++ after') := by
  -- Induction on the part, the text before it growing by each character that is passed.
  induction part generalizing before before' with
  | nil => simp [lowercaseIn]
  | cons c part ih =>
    rw [forall_split_cons, lowercaseIn, lowercaseIn]
    simp only [List.reverse_cons, List.append_assoc, List.singleton_append, List.reverse_nil,
      List.nil_append]
    rw [← ih]
    by_cases hc : c = 'Σ'
    · simp only [hc, if_true, true_imp_iff]
      cases endsWord before (part ++ after) <;> cases endsWord before' (part ++ after') <;> simp
    · simp [hc]

/-- Every sigma of the part ends a word in the text around it if it ends one in the part. -/
def KeepsSigmas (before part after : Text) : Prop :=
  ∀ left right, part = left ++ 'Σ' :: right →
    endsWord (left.reverse ++ before.reverse) (right ++ after) = endsWord left.reverse right

/-- The lower-case form of a text, taken for a part of it. -/
theorem lowercase_eq_lowercaseIn (text : Text) : lowercase text = lowercaseIn [] [] text := by
  have happend := lowercaseAfter_append [] text []
  rwa [List.append_nil, lowercaseAfter, List.append_nil] at happend

/-- A part has its own lower-case form in its place if it keeps its sigmas. -/
theorem lowercaseIn_eq_lowercase_iff {before part after : Text} :
    lowercaseIn before.reverse after part = lowercase part ↔ KeepsSigmas before part after := by
  rw [lowercase_eq_lowercaseIn, lowercaseIn_eq_iff, KeepsSigmas]
  simp only [List.append_nil]

/-- The lower-case form of a text, taken apart. -/
theorem lowercase_append (before part after : Text) :
    ∃ front rest, lowercase (before ++ part ++ after) =
      front ++ lowercaseIn before.reverse after part ++ rest := by
  refine ⟨lowercaseIn [] (part ++ after) before,
    lowercaseAfter (part.reverse ++ before.reverse) after, ?_⟩
  rw [lowercase, List.append_assoc, lowercaseAfter_append, List.append_nil, lowercaseAfter_append,
    List.append_assoc]

end Text

/-! ## Names and their parts -/

namespace NameSet

/-- A part of a name that keeps its sigmas is covered, and so is every text that is equal to the
part up to case. -/
theorem covers_part {set : NameSet} (hset : set.Built) {before value after : Text}
    (hname : before ++ value ++ after ∈ set.names) (hsigmas : KeepsSigmas before value after) :
    ∀ form, lowercase form = lowercase value → set.covers form = true := by
  intro form hform
  obtain ⟨entry, hentry, hvalue⟩ := List.mem_map.mp hname
  obtain ⟨front, rest, hlower⟩ := lowercase_append before value after
  -- The lower-case form of the name holds that of the part, in its place.
  refine List.any_eq_true.mpr ⟨entry, hentry, occursIn_iff.mpr ⟨front, rest, ?_⟩⟩
  rw [hset.folded_eq entry hentry, hvalue, hlower, hform,
    lowercaseIn_eq_lowercase_iff.mpr hsigmas]

/-- The sigma at the end of a word is kept by a part that ends with the word. -/
theorem covers_part_word :
    KeepsSigmas "Ο".toList "ΔΟΣ".toList " ΑΘΗΝΑΣ".toList ∧
      (ofList ["ΟΔΟΣ ΑΘΗΝΑΣ".toList]).covers "δος".toList = true := by
  have hsigmas : KeepsSigmas "Ο".toList "ΔΟΣ".toList " ΑΘΗΝΑΣ".toList :=
    lowercaseIn_eq_lowercase_iff.mp (by decide +kernel)
  have hbuilt : (ofList ["ΟΔΟΣ ΑΘΗΝΑΣ".toList]).Built := .extend .empty _
  exact ⟨hsigmas, covers_part hbuilt (by decide +kernel) hsigmas "δος".toList (by decide +kernel)⟩

/-- A part that ends with a sigma where the name goes on is not covered. -/
theorem exists_uncovered :
    ∃ (set : NameSet) (before value after : Text), set.Built ∧
      before ++ value ++ after ∈ set.names ∧ set.covers value = false :=
  ⟨ofList ["ΑΣΑ".toList], [], "ΑΣ".toList, "Α".toList, .extend .empty _, by decide +kernel,
    by decide +kernel⟩

end NameSet

end ItemFilter
