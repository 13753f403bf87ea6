import ItemFilter.Text.Blank

/-!
# Edit distance

The number of characters to insert, delete or replace to turn one word into another. It is computed
row by row: the row of a word against `target` holds the distances from that word to `target` and
to each of its tails, so the row of a longer word follows from the row of its tail.

## Main definitions

* `lengths`: the row of the empty word
* `nextRow`: the row of a word from the row of its tail
* `distanceRow`, `distance`: the row of a word, and the edit distance of two words

## Main results

* `distance_nil_left`, `distance_nil_right`, `distance_cons_cons`: the recurrence of the edit
  distance
-/

namespace ItemFilter.Text

/-- The distances from the empty word to `target` and to each of its tails. -/
def lengths : Text → List Nat
  | [] => [0]
  | _ :: target => (target.length + 1) :: lengths target

/-- The row of `c :: word` against `target`, from the row of `word`. -/
def nextRow (c : Char) : Text → List Nat → List Nat
  | d :: target, deleted :: replaced :: row =>
    let shorter := nextRow c target (replaced :: row)
    (if c = d then replaced else min replaced (min deleted (shorter.headD 0)) + 1) :: shorter
  | _, row => row.map (· + 1)

/-- The distances from a word to `target` and to each of its tails. -/
def distanceRow : Text → Text → List Nat
  | [], target => lengths target
  | c :: word, target => nextRow c target (distanceRow word target)

/-- The edit distance of two words. -/
def distance (word target : Text) : Nat :=
  (distanceRow word target).headD 0

theorem distanceRow_nil_right (word : Text) : distanceRow word [] = [word.length] := by
  induction word with
  | nil => rfl
  | cons c word ih => simp [distanceRow, ih, nextRow]

/-- The row of a longer word, once the row of its tail is known. -/
theorem distanceRow_cons_cons {c d : Char} {word target : Text} {deleted replaced : Nat}
    {row : List Nat} (hlong : distanceRow word (d :: target) = deleted :: replaced :: row)
    (hshort : distanceRow word target = replaced :: row) :
    distanceRow (c :: word) (d :: target) =
      (if c = d then replaced
        else min replaced (min deleted (distance (c :: word) target)) + 1) ::
        distanceRow (c :: word) target := by
  have h : distanceRow (c :: word) target = nextRow c target (replaced :: row) := by
    rw [distanceRow, hshort]
  rw [distance, h, distanceRow, hlong, nextRow]

/-- The row of a word against a longer target has one more entry in front. -/
theorem distanceRow_cons_right (word : Text) (d : Char) (target : Text) :
    distanceRow word (d :: target) = distance word (d :: target) :: distanceRow word target := by
  induction word generalizing d target with
  | nil => rfl
  | cons c word ih =>
    obtain ⟨n, row, hrow⟩ : ∃ n row, distanceRow word target = n :: row := by
      cases target with
      | nil => exact ⟨_, _, distanceRow_nil_right word⟩
      | cons e target => exact ⟨_, _, ih e target⟩
    have h := distanceRow_cons_cons (c := c) ((ih d target).trans (by rw [hrow])) hrow
    rw [distance, h, List.headD_cons]

/-- Every row has an entry for the whole target in front. -/
theorem exists_distanceRow (word target : Text) :
    ∃ row, distanceRow word target = distance word target :: row := by
  cases target with
  | nil => exact ⟨[], by rw [distance, distanceRow_nil_right, List.headD_cons]⟩
  | cons d target => exact ⟨_, distanceRow_cons_right word d target⟩

/-- From the empty word every character is inserted. -/
@[simp] theorem distance_nil_left (target : Text) : distance [] target = target.length := by
  cases target <;> rfl

/-- To the empty word every character is deleted. -/
@[simp] theorem distance_nil_right (word : Text) : distance word [] = word.length := by
  simp [distance, distanceRow_nil_right]

/-- Equal first characters cost nothing. Different ones are replaced, or one of them is deleted or
inserted, whichever is cheapest. -/
theorem distance_cons_cons (c d : Char) (word target : Text) :
    distance (c :: word) (d :: target) =
      if c = d then distance word target
      else min (distance word target)
        (min (distance word (d :: target)) (distance (c :: word) target)) + 1 := by
  obtain ⟨row, hrow⟩ := exists_distanceRow word target
  have h := distanceRow_cons_cons (c := c)
    ((distanceRow_cons_right word d target).trans (by rw [hrow])) hrow
  rw [distance, h, List.headD_cons]

end ItemFilter.Text
