import ItemFilter.Text.Blank

/-!
# Columns

A column is a number of UTF-8 bytes. A text can be cut at a column only where a character ends, so
cutting is partial: a column inside a character, or past the end, is no place in the text.

## Main definitions

* `byteLength`: the UTF-8 length of a text
* `splitAt?`: the text before and after a column
* `cut?`: the text before, between and after two columns
* `slice?`, `replace?`: the text between two columns, and the text with that part replaced

## Main results

* `splitAt?_eq_some_iff`: cutting at a column takes the text apart after that many bytes
-/

namespace ItemFilter.Text

/-- The UTF-8 length of a text. -/
def byteLength : Text → Nat
  | [] => 0
  | c :: text => c.utf8Size + byteLength text

@[simp] theorem byteLength_nil : byteLength [] = 0 := rfl

@[simp] theorem byteLength_cons (c : Char) (text : Text) :
    byteLength (c :: text) = c.utf8Size + byteLength text := rfl

@[simp] theorem byteLength_append (left right : Text) :
    byteLength (left ++ right) = byteLength left + byteLength right := by
  induction left with
  | nil => simp
  | cons c left ih => simp [ih, Nat.add_assoc]

/-- The text before and after the column `n`, if a character ends there. -/
def splitAt? : Nat → Text → Option (Text × Text)
  | 0, text => some ([], text)
  | _ + 1, [] => none
  | n + 1, c :: text =>
    if c.utf8Size ≤ n + 1 then
      (splitAt? (n + 1 - c.utf8Size) text).map fun (before, after) => (c :: before, after)
    else none

@[simp] theorem splitAt?_zero (text : Text) : splitAt? 0 text = some ([], text) := by
  cases text <;> rfl

/-- Only the empty text is no bytes long. -/
@[simp] theorem byteLength_eq_zero_iff {text : Text} : byteLength text = 0 ↔ text = [] := by
  cases text with
  | nil => simp
  | cons c text =>
    have := c.utf8Size_pos
    simp only [byteLength_cons, reduceCtorEq, iff_false]
    omega

/-- Cutting at a column takes the text apart after exactly that many bytes. -/
theorem splitAt?_eq_some_iff {n : Nat} {text before after : Text} :
    splitAt? n text = some (before, after) ↔ text = before ++ after ∧ byteLength before = n := by
  induction text generalizing n before with
  | nil =>
    cases n with
    | zero => grind [splitAt?_zero, byteLength_eq_zero_iff]
    | succ n =>
      simp only [splitAt?, reduceCtorEq, false_iff, not_and]
      intro h
      obtain ⟨rfl, rfl⟩ := List.append_eq_nil_iff.1 h.symm
      simp
  | cons c text ih =>
    cases n with
    | zero => grind [splitAt?_zero, byteLength_eq_zero_iff]
    | succ n =>
      simp only [splitAt?]
      constructor
      · intro h
        split at h
        · next hc =>
          obtain ⟨⟨b, a⟩, hb, hab⟩ := Option.map_eq_some_iff.1 h
          obtain ⟨rfl, rfl⟩ := Prod.mk.injEq .. ▸ hab
          obtain ⟨rfl, hl⟩ := ih.1 hb
          exact ⟨rfl, by simp only [byteLength_cons, hl]; omega⟩
        · cases h
      · rintro ⟨h, hn⟩
        cases before with
        | nil => simp at hn
        | cons d before =>
          obtain ⟨rfl, rfl⟩ := List.cons.inj h
          simp only [byteLength_cons] at hn
          rw [if_pos (by omega)]
          exact Option.map_eq_some_iff.2 ⟨(before, after), ih.2 ⟨rfl, by omega⟩, rfl⟩

/-- The text before, between and after two columns, if both are places in the text and in order. -/
def cut? (start stop : Nat) (text : Text) : Option (Text × Text × Text) :=
  if start ≤ stop then
    (splitAt? start text).bind fun (before, rest) =>
      (splitAt? (stop - start) rest).map fun (inside, after) => (before, inside, after)
  else none

/-- The text between two columns. -/
def slice? (start stop : Nat) (text : Text) : Option Text :=
  (cut? start stop text).map fun (_, inside, _) => inside

/-- The text with the part between two columns replaced by `new`. -/
def replace? (start stop : Nat) (new text : Text) : Option Text :=
  (cut? start stop text).map fun (before, _, after) => before ++ new ++ after

end ItemFilter.Text
