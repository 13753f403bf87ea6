import ItemFilter.Catalog.Reader
import ItemFilter.Proofs.Mending

/-!
# Catalogs as filters

A catalog file may be among the files that are fixed. No line of it starts with a keyword then, as
keywords start with a capital letter and nothing in JSON does: capital letters stand in strings,
which have no line breaks, and in exponents, which are not at the start of a number. So a catalog
file is never changed.

## Main definitions

* `Text.uncapitalized`: whether no line of a text starts with a capital letter
* `Json.SkipsUncapitalized`: that this is so for what a function skips

## Main results

* `Json.skipsUncapitalized`: no line of a value starts with a capital letter
* `Catalog.not_needsMending_of_ofJson?`: the lines of a catalog file are neither edited nor fixed
-/

namespace ItemFilter

open Text

/-! ## Lines without capitals at the start -/

namespace Text

/-- Whether no line of a text starts with a capital letter. The first line may have one if it is
not `fresh`, which means that there was something else in it before. -/
def uncapitalized (fresh : Bool) : Text → Bool
  | [] => true
  | c :: text =>
    if c = '\n' then uncapitalized true text
    else if isBlank c then uncapitalized fresh text
    else !(fresh && c.isUpper) && uncapitalized false text

variable {c : Char} {text rest : Text}

theorem uncapitalized_of_fresh (h : uncapitalized true text = true) :
    uncapitalized false text = true := by
  induction text with
  | nil => rfl
  | cons c text ih =>
    rw [uncapitalized] at h ⊢
    split
    · simpa [*] using h
    · split
      · exact ih (by simpa [*] using h)
      · simp_all

/-- Within a line, any character may follow. -/
theorem uncapitalized_cons (hc : c ≠ '\n') (h : uncapitalized false text = true) :
    uncapitalized false (c :: text) = true := by
  rw [uncapitalized, if_neg hc]
  split
  · exact h
  · simpa using h

/-- A line may start with what is neither white space nor a capital letter. -/
theorem uncapitalized_start (hc : c ≠ '\n') (hupper : c.isUpper = false)
    (h : uncapitalized false text = true) (hblank : isBlank c = false) :
    uncapitalized true (c :: text) = true := by
  rw [uncapitalized, if_neg hc, if_neg (by simp [hblank])]
  simpa [hupper] using h

theorem uncapitalized_of_drop {p : Char → Bool} (hp : p '\n' = false)
    (h : uncapitalized false (text.dropWhile p) = true) : uncapitalized false text = true := by
  induction text with
  | nil => rfl
  | cons c text ih =>
    rw [List.dropWhile_cons] at h
    split at h
    · next hc => exact uncapitalized_cons (by rintro rfl; simp [hp] at hc) (ih h)
    · exact h

theorem uncapitalized_of_append {fresh : Bool}
    (h : uncapitalized fresh (text ++ rest) = true) : uncapitalized fresh text = true := by
  induction text generalizing fresh with
  | nil => rfl
  | cons c text ih =>
    rw [List.cons_append, uncapitalized] at h
    rw [uncapitalized]
    split
    · next hc => exact ih (by simpa [hc] using h)
    · next hc =>
      rw [if_neg hc] at h
      split
      · next hblank => exact ih (by simpa [hblank] using h)
      · next hblank =>
        rw [if_neg hblank, Bool.and_eq_true] at h
        simp [h.1, ih h.2]

theorem uncapitalized_of_break {fresh : Bool}
    (h : uncapitalized fresh (text ++ '\n' :: rest) = true) : uncapitalized true rest = true := by
  induction text generalizing fresh with
  | nil => simpa [uncapitalized] using h
  | cons c text ih =>
    rw [List.cons_append, uncapitalized] at h
    split at h
    · exact ih h
    · split at h
      · exact ih h
      · exact ih (Bool.and_eq_true_iff.mp h).2

theorem uncapitalized_of_mem_linesAfter {front line : Text}
    (h : uncapitalized true (front.reverse ++ text) = true) (hline : line ∈ linesAfter front text) :
    uncapitalized true line = true := by
  -- Induction on the text behind what the first line already holds.
  induction text generalizing front with
  | nil =>
    rw [linesAfter] at hline
    split at hline
    · cases hline
    · obtain rfl := List.mem_singleton.mp hline
      simpa using h
  | cons c text ih =>
    rw [linesAfter] at hline
    split at hline
    · next hc =>
      subst hc
      rcases List.mem_cons.mp hline with rfl | hline
      · have hfront := uncapitalized_of_append h
        unfold dropReturn
        split
        · exact uncapitalized_of_append (by simpa using hfront)
        · exact hfront
      · exact ih (uncapitalized_of_break h) hline
    · exact ih (by simpa using h) hline

/-- No line of such a text starts with a capital letter. -/
theorem uncapitalized_of_mem_lines {line : Text} (h : uncapitalized true text = true)
    (hline : line ∈ lines text) : uncapitalized true line = true :=
  uncapitalized_of_mem_linesAfter (by simpa using h) hline

theorem isUpper_of_uncapitalized {gap : Text} (hgap : allBlank gap = true)
    (hblank : isBlank c = false) (h : uncapitalized true (gap ++ c :: rest) = true) :
    c.isUpper = false := by
  induction gap with
  | nil =>
    have hc : c ≠ '\n' := by
      rintro rfl
      exact absurd hblank (by decide)
    rw [List.nil_append, uncapitalized, if_neg hc, if_neg (by simp [hblank])] at h
    simpa using (Bool.and_eq_true_iff.mp h).1
  | cons d gap ih =>
    obtain ⟨hd, hgap⟩ : isBlank d = true ∧ allBlank gap = true := by simpa [allBlank] using hgap
    rw [List.cons_append, uncapitalized, if_pos hd] at h
    exact ih hgap (by simpa using h)

end Text

/-- Keywords start with a capital letter. -/
theorem Keyword.exists_isUpper (keyword : Keyword) :
    ∃ c rest, keyword.name.toList = c :: rest ∧ c.isUpper = true ∧ isBlank c = false := by
  cases keyword <;> exact ⟨_, _, rfl, by decide, by decide⟩

/-- A line that starts with no capital letter is neither edited nor fixed. -/
theorem Classifier.not_needsMending_of_uncapitalized (c : Classifier) {line : Text}
    (h : uncapitalized true line = true) : ¬ c.NeedsMending line := by
  rcases c.classify_cases line with ⟨gap, keyword, rest, hgap, -, rfl⟩ | ⟨hedits, -, hplain⟩
  · obtain ⟨d, name, hname, hupper, hblank⟩ := keyword.exists_isUpper
    rw [hname, List.append_assoc, List.cons_append] at h
    rw [isUpper_of_uncapitalized hgap hblank h] at hupper
    cases hupper
  · rw [NeedsMending, hedits, LineResult.fixes, List.filterMap_eq_nil_iff.mpr fun d hd =>
      (hplain d hd).2]
    simp

/-! ## Reading JSON -/

namespace Json

variable {text rest : Text}

/-- White space in front of a line does not count. -/
theorem uncapitalized_of_skipSpace (h : uncapitalized true (skipSpace text) = true) :
    uncapitalized true text = true := by
  induction text with
  | nil => rfl
  | cons c text ih =>
    rw [skipSpace, List.dropWhile_cons] at h
    split at h
    · next hc =>
      rw [uncapitalized]
      split
      · exact ih h
      · have hblank : isBlank c = true := by
          simp only [isSpace, Bool.or_eq_true, beq_iff_eq] at hc
          rcases hc with ((rfl | rfl) | rfl) | rfl <;> decide
        rw [if_pos hblank]
        exact ih h
    · exact h

/-- A character between the parts of a value is neither white space nor a letter. -/
theorem uncapitalized_of_part {c : Char} (hspace : skipSpace text = c :: rest)
    (hc : c ∈ ['"', '[', ']', '\x7b', '\x7d', ',', ':', 'n', 't', 'f'])
    (h : uncapitalized false rest = true) : uncapitalized true text = true := by
  apply uncapitalized_of_skipSpace
  rw [hspace]
  have hall : ['"', '[', ']', '\x7b', '\x7d', ',', ':', 'n', 't', 'f'].all
      (fun c => c != '\n' && !c.isUpper && !isBlank c) = true := by decide
  have hplain := List.all_eq_true.mp hall c hc
  simp only [Bool.and_eq_true, bne_iff_ne, Bool.not_eq_true'] at hplain
  obtain ⟨⟨hbreak, hupper⟩, hblank⟩ := hplain
  exact uncapitalized_start hbreak hupper h hblank

theorem uncapitalized_of_hexUnit? {n : Nat} (h : hexUnit? text = some (n, rest))
    (hrest : uncapitalized false rest = true) : uncapitalized false text = true := by
  unfold hexUnit? at h
  split at h
  · split at h
    · next hdigits =>
      obtain ⟨-, rfl⟩ := Prod.mk.inj (Option.some.inj h)
      have hbreak {c : Char} (hc : Cursor.isHexDigit c = true) : c ≠ '\n' := by
        rintro rfl
        exact absurd hc (by decide)
      simp only [List.all_cons, List.all_nil, Bool.and_true, Bool.and_eq_true] at hdigits
      obtain ⟨ha, hb, hc, hd⟩ := hdigits
      exact uncapitalized_cons (hbreak ha) <| uncapitalized_cons (hbreak hb) <|
        uncapitalized_cons (hbreak hc) <| uncapitalized_cons (hbreak hd) hrest
    · cases h
  · cases h

theorem uncapitalized_of_unicodeEscape? {c : Char} (h : unicodeEscape? text = some (c, rest))
    (hrest : uncapitalized false rest = true) : uncapitalized false text = true := by
  obtain ⟨⟨high, behind⟩, hhigh, h⟩ := Option.bind_eq_some_iff.mp h
  refine uncapitalized_of_hexUnit? hhigh ?_
  dsimp only at h
  split at h
  · cases h
  · split at h
    · split at h
      · obtain ⟨⟨low, last⟩, hlow, h⟩ := Option.bind_eq_some_iff.mp h
        dsimp only at h
        split at h
        · obtain ⟨-, rfl⟩ := Prod.mk.inj (Option.some.inj h)
          exact uncapitalized_cons (by decide) <| uncapitalized_cons (by decide) <|
            uncapitalized_of_hexUnit? hlow hrest
        · cases h
      · cases h
    · obtain ⟨-, rfl⟩ := Prod.mk.inj (Option.some.inj h)
      exact hrest

theorem simpleEscape?_break : simpleEscape? '\n' = none := by decide

/-- A string has no line breaks. -/
theorem uncapitalized_of_stringBody? {fuel : Nat} {body : Text}
    (h : stringBody? fuel text = some (body, rest)) (hrest : uncapitalized false rest = true) :
    uncapitalized false text = true := by
  induction fuel generalizing text body with
  | zero => cases h
  | succ fuel ih =>
    cases text with
    | nil => cases h
    | cons c text =>
      unfold stringBody? at h
      split at h
      · next hc =>
        obtain ⟨-, rfl⟩ := Prod.mk.inj (Option.some.inj h)
        exact uncapitalized_cons (by rw [hc]; decide) hrest
      · split at h
        · cases h
        next hlow =>
          have hbreak : c ≠ '\n' := by
            rintro rfl
            exact hlow (by decide)
          refine uncapitalized_cons hbreak ?_
          split at h
          · split at h
            · cases h
            · obtain ⟨⟨d, behind⟩, hescape, h⟩ := Option.bind_eq_some_iff.mp h
              obtain ⟨⟨body', last⟩, hbody, h⟩ := Option.bind_eq_some_iff.mp h
              obtain ⟨-, rfl⟩ := Prod.mk.inj (Option.some.inj h)
              exact uncapitalized_cons (by decide)
                (uncapitalized_of_unicodeEscape? hescape (ih hbody))
            · obtain ⟨d, hescape, h⟩ := Option.bind_eq_some_iff.mp h
              obtain ⟨⟨body', last⟩, hbody, h⟩ := Option.bind_eq_some_iff.mp h
              obtain ⟨-, rfl⟩ := Prod.mk.inj (Option.some.inj h)
              refine uncapitalized_cons ?_ (ih hbody)
              rintro rfl
              simp [simpleEscape?_break] at hescape
          · obtain ⟨⟨body', last⟩, hbody, h⟩ := Option.map_eq_some_iff.mp h
            obtain ⟨-, rfl⟩ := Prod.mk.inj h
            exact ih hbody

theorem uncapitalized_of_readString {body : Text} (h : readString text = some (body, rest))
    (hrest : uncapitalized false rest = true) : uncapitalized true text = true := by
  unfold readString at h
  split at h
  · exact uncapitalized_start (by decide) (by decide) (uncapitalized_of_stringBody? h hrest)
      (by decide)
  · cases h

theorem uncapitalized_of_restOfStrings {fuel : Nat} {items : List Text}
    (h : restOfStrings fuel text = some (items, rest)) (hrest : uncapitalized false rest = true) :
    uncapitalized true text = true := by
  induction fuel generalizing text items with
  | zero => cases h
  | succ fuel ih =>
    obtain ⟨⟨item, behind⟩, hitem, h⟩ := Option.bind_eq_some_iff.mp h
    apply uncapitalized_of_skipSpace
    refine uncapitalized_of_readString hitem (uncapitalized_of_fresh ?_)
    dsimp only at h
    split at h
    · next hspace =>
      obtain ⟨⟨items', last⟩, hitems, h⟩ := Option.bind_eq_some_iff.mp h
      obtain ⟨-, rfl⟩ := Prod.mk.inj (Option.some.inj h)
      exact uncapitalized_of_part hspace (by decide) (uncapitalized_of_fresh (ih hitems))
    · next hspace =>
      obtain ⟨-, rfl⟩ := Prod.mk.inj (Option.some.inj h)
      exact uncapitalized_of_part hspace (by decide) hrest
    · cases h

theorem uncapitalized_of_readStrings {items : List Text} (h : readStrings text = some (items, rest))
    (hrest : uncapitalized false rest = true) : uncapitalized true text = true := by
  unfold readStrings at h
  split at h
  · refine uncapitalized_start (by decide) (by decide) (uncapitalized_of_fresh ?_) (by decide)
    split at h
    · next hspace =>
      obtain ⟨-, rfl⟩ := Prod.mk.inj (Option.some.inj h)
      exact uncapitalized_of_part hspace (by decide) hrest
    · exact uncapitalized_of_skipSpace (uncapitalized_of_restOfStrings h hrest)
  · cases h

/-! ## Values that are passed over -/

theorem uncapitalized_of_skipStringBody {fuel : Nat} (h : skipStringBody fuel text = some rest)
    (hrest : uncapitalized false rest = true) : uncapitalized false text = true := by
  induction fuel generalizing text with
  | zero => cases h
  | succ fuel ih =>
    cases text with
    | nil => cases h
    | cons c text =>
      unfold skipStringBody at h
      split at h
      · next hc =>
        obtain rfl := Option.some.inj h
        exact uncapitalized_cons (by rw [hc]; decide) hrest
      · split at h
        · cases h
        next hlow =>
          have hbreak : c ≠ '\n' := by
            rintro rfl
            exact hlow (by decide)
          refine uncapitalized_cons hbreak ?_
          split at h
          · split at h
            · cases h
            · obtain ⟨⟨n, behind⟩, hunit, h⟩ := Option.bind_eq_some_iff.mp h
              exact uncapitalized_cons (by decide) (uncapitalized_of_hexUnit? hunit (ih h))
            · split at h
              · next hescape =>
                refine uncapitalized_cons ?_ (ih h)
                rintro rfl
                simp [simpleEscape?_break] at hescape
              · cases h
          · exact ih h

theorem isUpper_of_isDigit {c : Char} (h : c.isDigit = true) : c.isUpper = false := by
  simp only [Char.isDigit, ge_iff_le, UInt32.le_iff_toNat_le, Bool.and_eq_true,
    decide_eq_true_eq] at h
  have hlt : ¬ 'A'.val.toNat ≤ c.val.toNat := Nat.not_le.mpr (Nat.lt_of_le_of_lt h.2 (by decide))
  delta Char.isUpper
  simp only [ge_iff_le, UInt32.le_iff_toNat_le, decide_eq_false_iff_not]
  exact fun hupper => hlt hupper.1

/-- Digits are followed by the rest, and there is one of them at the start. -/
theorem uncapitalized_of_skipDigits (h : skipDigits text = some rest)
    (hrest : uncapitalized false rest = true) : uncapitalized true text = true := by
  unfold skipDigits at h
  dsimp only at h
  split at h
  · next hlt =>
    obtain rfl := Option.some.inj h
    cases text with
    | nil => cases hlt
    | cons c text =>
      rw [List.dropWhile_cons] at hlt hrest
      split at hlt
      · next hc =>
        rw [if_pos hc] at hrest
        have hbreak : c ≠ '\n' := by
          rintro rfl
          exact absurd hc (by decide)
        exact uncapitalized_start hbreak (isUpper_of_isDigit hc)
          (uncapitalized_of_drop (by decide) hrest) (isBlank_of_isDigit hc)
      · exact absurd hlt (Nat.lt_irrefl _)
  · cases h

theorem uncapitalized_of_skipExponent (h : skipExponent text = some rest)
    (hrest : uncapitalized false rest = true) : uncapitalized false text = true := by
  unfold skipExponent at h
  split at h
  · next c text =>
    split at h
    · next hc =>
      have hbreak : c ≠ '\n' := by
        rintro rfl
        exact absurd hc (by decide)
      refine uncapitalized_cons hbreak ?_
      split at h
      · exact uncapitalized_cons (by decide)
          (uncapitalized_of_fresh (uncapitalized_of_skipDigits h hrest))
      · exact uncapitalized_cons (by decide)
          (uncapitalized_of_fresh (uncapitalized_of_skipDigits h hrest))
      · exact uncapitalized_of_fresh (uncapitalized_of_skipDigits h hrest)
    · obtain rfl := Option.some.inj h
      exact hrest
  · rfl

theorem uncapitalized_of_skipWord {word : List Char} (hword : '\n' ∉ word)
    (h : skipWord word text = some rest) (hrest : uncapitalized false rest = true) :
    uncapitalized false text = true := by
  induction word generalizing text with
  | nil =>
    obtain rfl := Option.some.inj h
    exact hrest
  | cons c word ih =>
    rw [List.mem_cons, not_or] at hword
    cases text with
    | nil => cases h
    | cons d text =>
      rw [skipWord] at h
      split at h
      · next hc => exact uncapitalized_cons (by rw [← hc]; exact Ne.symm hword.1) (ih hword.2 h)
      · cases h

theorem uncapitalized_of_skipNumber (h : skipNumber text = some rest)
    (hrest : uncapitalized false rest = true) : uncapitalized true text = true := by
  unfold skipNumber at h
  extract_lets signed behind at h
  -- Behind the digits there is a fraction, an exponent, both or neither.
  have hbehind : ∀ last, behind last = some rest → uncapitalized false last = true := by
    intro last hlast
    dsimp only [behind] at hlast
    split at hlast
    · obtain ⟨middle, hdigits, hexponent⟩ := Option.bind_eq_some_iff.mp hlast
      exact uncapitalized_cons (by decide) (uncapitalized_of_fresh
        (uncapitalized_of_skipDigits hdigits (uncapitalized_of_skipExponent hexponent hrest)))
    · exact uncapitalized_of_skipExponent hlast hrest
  have hsigned : uncapitalized true signed = true := by
    clear_value signed behind
    split at h
    · refine uncapitalized_start (by decide) (by decide) ?_ (by decide)
      split at h
      · split at h
        · cases h
        · exact hbehind _ h
      · exact hbehind _ h
    · obtain ⟨last, hwhole, hlast⟩ := Option.bind_eq_some_iff.mp h
      exact uncapitalized_of_skipDigits hwhole (hbehind last hlast)
  dsimp only [signed] at hsigned
  split at hsigned
  · exact uncapitalized_start (by decide) (by decide) (uncapitalized_of_fresh hsigned) (by decide)
  · exact hsigned

/-- What is skipped has no capital letter at the start of a line, as long as what is left has none
at the start of its further lines. -/
def SkipsUncapitalized (skip : Text → Option Text) : Prop :=
  ∀ text rest, skip text = some rest → uncapitalized false rest = true →
    uncapitalized true text = true

theorem skipsUncapitalized_skipValueWith {fuel : Nat}
    (hitems : SkipsUncapitalized (skipItems fuel))
    (hmembers : SkipsUncapitalized (skipMembers fuel)) :
    SkipsUncapitalized (skipValueWith (fuel + 1)) := by
  intro text rest h hrest
  rw [skipValueWith] at h
  split at h
  · next hspace =>
    exact uncapitalized_of_part hspace (by decide) (uncapitalized_of_skipStringBody h hrest)
  · next hspace =>
    refine uncapitalized_of_part hspace (by decide) (uncapitalized_of_fresh ?_)
    split at h
    · next hend =>
      obtain rfl := Option.some.inj h
      exact uncapitalized_of_part hend (by decide) hrest
    · exact uncapitalized_of_skipSpace (hitems _ _ h hrest)
  · next hspace =>
    refine uncapitalized_of_part hspace (by decide) (uncapitalized_of_fresh ?_)
    split at h
    · next hend =>
      obtain rfl := Option.some.inj h
      exact uncapitalized_of_part hend (by decide) hrest
    · exact uncapitalized_of_skipSpace (hmembers _ _ h hrest)
  · next hspace =>
    exact uncapitalized_of_part hspace (by decide) (uncapitalized_of_skipWord (by decide) h hrest)
  · next hspace =>
    exact uncapitalized_of_part hspace (by decide) (uncapitalized_of_skipWord (by decide) h hrest)
  · next hspace =>
    exact uncapitalized_of_part hspace (by decide) (uncapitalized_of_skipWord (by decide) h hrest)
  · exact uncapitalized_of_skipSpace (uncapitalized_of_skipNumber h hrest)

theorem skipsUncapitalized_skipItems {fuel : Nat}
    (hvalue : SkipsUncapitalized (skipValueWith fuel))
    (hitems : SkipsUncapitalized (skipItems fuel)) :
    SkipsUncapitalized (skipItems (fuel + 1)) := by
  intro text rest h hrest
  obtain ⟨behind, hitem, h⟩ := Option.bind_eq_some_iff.mp h
  refine hvalue _ _ hitem (uncapitalized_of_fresh ?_)
  split at h
  · next hcomma =>
    exact uncapitalized_of_part hcomma (by decide) (uncapitalized_of_fresh (hitems _ _ h hrest))
  · next hend =>
    obtain rfl := Option.some.inj h
    exact uncapitalized_of_part hend (by decide) hrest
  · cases h

theorem skipsUncapitalized_skipMembers {fuel : Nat}
    (hvalue : SkipsUncapitalized (skipValueWith fuel))
    (hmembers : SkipsUncapitalized (skipMembers fuel)) :
    SkipsUncapitalized (skipMembers (fuel + 1)) := by
  intro text rest h hrest
  rw [skipMembers] at h
  split at h
  · next hquote =>
    obtain ⟨behind, hname, h⟩ := Option.bind_eq_some_iff.mp h
    refine uncapitalized_of_part hquote (by decide)
      (uncapitalized_of_skipStringBody hname (uncapitalized_of_fresh ?_))
    split at h
    · next hcolon =>
      obtain ⟨last, hmember, h⟩ := Option.bind_eq_some_iff.mp h
      refine uncapitalized_of_part hcolon (by decide)
        (uncapitalized_of_fresh (hvalue _ _ hmember (uncapitalized_of_fresh ?_)))
      split at h
      · next hcomma =>
        exact uncapitalized_of_part hcomma (by decide)
          (uncapitalized_of_fresh (hmembers _ _ h hrest))
      · next hend =>
        obtain rfl := Option.some.inj h
        exact uncapitalized_of_part hend (by decide) hrest
      · cases h
    · cases h
  · cases h

/-- No line of a value starts with a capital letter, and neither does one of the items of an array
or of the members of an object. -/
theorem skipsUncapitalized (fuel : Nat) :
    SkipsUncapitalized (skipValueWith fuel) ∧ SkipsUncapitalized (skipItems fuel) ∧
      SkipsUncapitalized (skipMembers fuel) := by
  -- The three functions call each other with one step less, so they are dealt with together.
  induction fuel with
  | zero =>
    refine ⟨?_, ?_, ?_⟩
    all_goals
      intro text rest h
      cases h
  | succ fuel ih =>
    obtain ⟨hvalue, hitems, hmembers⟩ := ih
    exact ⟨skipsUncapitalized_skipValueWith hitems hmembers,
      skipsUncapitalized_skipItems hvalue hitems, skipsUncapitalized_skipMembers hvalue hmembers⟩

end Json

/-! ## Reading catalogs -/

namespace Catalog

open Json

namespace Data

variable {data last : Data} {text rest : Text}

theorem uncapitalized_of_readMember {name : Text}
    (h : data.readMember name text = some (last, rest)) (hrest : uncapitalized false rest = true) :
    uncapitalized true text = true := by
  -- A list of names, whichever it is.
  have hnames : ∀ {used : Bool} {f : List Text × Text → Data × Text},
      (∀ found, (f found).2 = found.2) →
      (if used = true then none else (readStrings text).map f) = some (last, rest) →
      uncapitalized true text = true := by
    intro used f hf h
    split at h
    · cases h
    · obtain ⟨⟨names, behind⟩, hnames, h⟩ := Option.map_eq_some_iff.mp h
      obtain rfl : behind = rest := (hf (names, behind)).symm.trans (congrArg Prod.snd h)
      exact uncapitalized_of_readStrings hnames hrest
  unfold readMember at h
  split at h
  · exact hnames (fun _ => rfl) h
  split at h
  · exact hnames (fun _ => rfl) h
  split at h
  · exact hnames (fun _ => rfl) h
  split at h
  · exact hnames (fun _ => rfl) h
  · obtain ⟨behind, hvalue, h⟩ := Option.map_eq_some_iff.mp h
    obtain ⟨-, rfl⟩ := Prod.mk.inj h
    exact (skipsUncapitalized _).1 _ _ hvalue hrest

theorem uncapitalized_of_readMembers {fuel : Nat}
    (h : readMembers fuel data text = some (last, rest)) (hrest : uncapitalized false rest = true) :
    uncapitalized true text = true := by
  induction fuel generalizing data text with
  | zero => cases h
  | succ fuel ih =>
    obtain ⟨⟨name, behind⟩, hname, h⟩ := Option.bind_eq_some_iff.mp h
    refine uncapitalized_of_skipSpace
      (uncapitalized_of_readString hname (uncapitalized_of_fresh ?_))
    dsimp only at h
    split at h
    · next hcolon =>
      obtain ⟨⟨middle, more⟩, hmember, h⟩ := Option.bind_eq_some_iff.mp h
      refine uncapitalized_of_part hcolon (by decide) (uncapitalized_of_fresh
        (uncapitalized_of_skipSpace (uncapitalized_of_readMember hmember
          (uncapitalized_of_fresh ?_))))
      dsimp only at h
      split at h
      · next hcomma =>
        exact uncapitalized_of_part hcomma (by decide) (uncapitalized_of_fresh (ih h))
      · next hend =>
        obtain ⟨-, rfl⟩ := Prod.mk.inj (Option.some.inj h)
        exact uncapitalized_of_part hend (by decide) hrest
      · cases h
    · cases h

theorem uncapitalized_of_readLists {fuel : Nat} {lists : List (List Text)}
    (h : readLists fuel text = some (lists, rest)) (hrest : uncapitalized false rest = true) :
    uncapitalized true text = true := by
  induction fuel generalizing text lists with
  | zero => cases h
  | succ fuel ih =>
    obtain ⟨⟨names, behind⟩, hnames, h⟩ := Option.bind_eq_some_iff.mp h
    refine uncapitalized_of_skipSpace
      (uncapitalized_of_readStrings hnames (uncapitalized_of_fresh ?_))
    dsimp only at h
    split at h
    · next hcomma =>
      obtain ⟨⟨lists', more⟩, hlists, h⟩ := Option.bind_eq_some_iff.mp h
      obtain ⟨-, rfl⟩ := Prod.mk.inj (Option.some.inj h)
      exact uncapitalized_of_part hcomma (by decide) (uncapitalized_of_fresh (ih hlists))
    · next hend =>
      obtain ⟨-, rfl⟩ := Prod.mk.inj (Option.some.inj h)
      exact uncapitalized_of_part hend (by decide) hrest
    · cases h

theorem uncapitalized_of_read (h : read text = some (data, rest))
    (hrest : uncapitalized false rest = true) : uncapitalized true text = true := by
  unfold read at h
  split at h
  · refine uncapitalized_start (by decide) (by decide) (uncapitalized_of_fresh ?_) (by decide)
    split at h
    · next hend =>
      obtain ⟨-, rfl⟩ := Prod.mk.inj (Option.some.inj h)
      exact uncapitalized_of_part hend (by decide) hrest
    · exact uncapitalized_of_skipSpace (uncapitalized_of_readMembers h hrest)
  · refine uncapitalized_start (by decide) (by decide) (uncapitalized_of_fresh ?_) (by decide)
    split at h
    · next hend =>
      obtain ⟨-, rfl⟩ := Prod.mk.inj (Option.some.inj h)
      exact uncapitalized_of_part hend (by decide) hrest
    · obtain ⟨⟨lists, behind⟩, hlists, h⟩ := Option.bind_eq_some_iff.mp h
      obtain ⟨found, -, h⟩ := Option.map_eq_some_iff.mp h
      obtain ⟨-, rfl⟩ := Prod.mk.inj h
      exact uncapitalized_of_skipSpace (uncapitalized_of_readLists hlists hrest)
  · cases h

end Data

/-- No line of a catalog file starts with a capital letter. -/
theorem uncapitalized_of_ofJson? {text : Text} {catalog : Catalog}
    (h : ofJson? text = some catalog) : uncapitalized true text = true := by
  unfold ofJson? at h
  split at h
  · next data rest hread =>
    split at h
    · next hend =>
      have hrest : uncapitalized true rest = true := by
        apply uncapitalized_of_skipSpace
        rw [List.isEmpty_iff.mp hend]
        rfl
      exact uncapitalized_of_skipSpace
        (Data.uncapitalized_of_read hread (uncapitalized_of_fresh hrest))
    · cases h
  · cases h

/-- The lines of a catalog file are neither edited nor fixed. -/
theorem not_needsMending_of_ofJson? {text : Text} {catalog : Catalog}
    (h : ofJson? text = some catalog) (c : Classifier) :
    ∀ line ∈ Text.lines text, ¬ c.NeedsMending line := fun _ hline =>
  c.not_needsMending_of_uncapitalized
    (uncapitalized_of_mem_lines (uncapitalized_of_ofJson? h) hline)

end Catalog

end ItemFilter
