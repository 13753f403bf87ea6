import ItemFilter.Proofs.NameMatching

/-!
# First spellings

A set of names keeps one spelling of each name, the one that came first, and the lower-case form of
it. So what a set holds depends on the row of all names that were ever added and on nothing else:
not on where one call ended and the next began, nor on names that came again. Which values the set
covers depends on even less, since for that it does not matter which spelling of a name is kept.

## Main definitions

* `NameSet.foldings`: the lower-case forms of the names
* `NameSet.ofCalls`: the set that names were added to in several calls
* `NameSet.firstSpellings`: a row of names without those that are equal to an earlier one up to case
* `NameSet.keeping`: the set that holds the first spellings of a row of names

## Main results

* `NameSet.mem_firstSpellings_iff`: a spelling is kept if no name before it is equal up to case
* `NameSet.keeping_extend`: adding names to a set is adding them to the row
* `NameSet.ofCalls_eq_keeping`: what is in a set after any number of calls
* `NameSet.history_ofCalls`: what a set knows of the names it was given
-/

namespace ItemFilter.NameSet

open Text

/-- The lower-case forms of the names, in the order the names were added. -/
def foldings (set : NameSet) : List Text :=
  set.entries.map NameEntry.folded

/-- The set that names were added to in several calls, one list of names for each of them. -/
def ofCalls (calls : List (List Text)) : NameSet :=
  calls.foldl extend {}

/-- The names of a row without those that are equal to an earlier one up to case. -/
def firstSpellings : List Text → List Text
  | [] => []
  | name :: names =>
    name :: (firstSpellings names).filter fun other => lowercase other != lowercase name

/-- Whether a row has a spelling of a name. -/
def spells (row : List Text) (name : Text) : Bool :=
  row.any fun other => lowercase other == lowercase name

/-- The set that holds the first spellings of a row of names. -/
def keeping (row : List Text) : NameSet :=
  ⟨(firstSpellings row).map fun name => ⟨name, lowercase name⟩⟩

variable {row names : List Text} {name : Text}

theorem spells_iff : spells row name = true ↔ ∃ other ∈ row, lowercase other = lowercase name := by
  simp [spells]

/-! ## Rows of names -/

/-- Of further names, those are kept that have no spelling in the row. -/
theorem firstSpellings_append (row names : List Text) :
    firstSpellings (row ++ names) =
      firstSpellings row ++ (firstSpellings names).filter fun name => !spells row name := by
  induction row with
  | nil => simp [firstSpellings, spells]
  | cons first row ih =>
    -- A name has to pass the row, and then the name in front of it.
    have hboth : ∀ name, (lowercase name != lowercase first && !spells row name) =
        !spells (first :: row) name := by
      intro name
      have hcons : spells (first :: row) name =
          (lowercase first == lowercase name || spells row name) := List.any_cons
      rw [hcons, Bool.not_or, bne, BEq.comm]
    rw [List.cons_append, firstSpellings, ih, List.filter_append, List.filter_filter,
      List.filter_congr fun name _ => hboth name, firstSpellings, List.cons_append]

theorem firstSpellings_sublist (row : List Text) : (firstSpellings row).Sublist row := by
  induction row with
  | nil => exact .slnil
  | cons first row ih => exact (List.filter_sublist.trans ih).cons_cons first

/-- A spelling is kept where no name before it is equal to it up to case. -/
theorem mem_firstSpellings_iff :
    name ∈ firstSpellings row ↔
      ∃ before after, row = before ++ name :: after ∧ spells before name = false := by
  induction row with
  | nil => simp [firstSpellings]
  | cons first row ih =>
    rw [firstSpellings, List.mem_cons, List.mem_filter, ih, bne_iff_ne]
    constructor
    · rintro (rfl | ⟨⟨before, after, rfl, hbefore⟩, hfirst⟩)
      · exact ⟨[], row, rfl, rfl⟩
      · refine ⟨first :: before, after, rfl, ?_⟩
        rw [spells, List.any_cons, Bool.or_eq_false_iff]
        exact ⟨beq_eq_false_iff_ne.mpr hfirst.symm, hbefore⟩
    · rintro ⟨before, after, hrow, hbefore⟩
      cases before with
      | nil => exact Or.inl (List.cons.inj hrow).1.symm
      | cons other before =>
        obtain ⟨rfl, rfl⟩ := List.cons.inj hrow
        rw [spells, List.any_cons, Bool.or_eq_false_iff] at hbefore
        exact Or.inr ⟨⟨before, after, rfl, hbefore.2⟩, (beq_eq_false_iff_ne.mp hbefore.1).symm⟩

/-- Every name of a row has a spelling that is kept. -/
theorem spells_firstSpellings (row : List Text) (name : Text) :
    spells (firstSpellings row) name = spells row name := by
  rw [Bool.eq_iff_iff, spells_iff, spells_iff]
  constructor
  · rintro ⟨other, hother, hcase⟩
    exact ⟨other, (firstSpellings_sublist row).subset hother, hcase⟩
  · intro h
    have hany : spells row name = true := spells_iff.mpr h
    obtain ⟨before, first, after, rfl, hbefore, hfirst⟩ := exists_first hany
    have hcase' : lowercase first = lowercase name := beq_iff_eq.mp hfirst
    refine ⟨first, mem_firstSpellings_iff.mpr ⟨before, after, rfl, ?_⟩, hcase'⟩
    rw [spells, hcase']
    exact List.any_eq_false.mpr fun other hother => by simpa using hbefore other hother

/-- No two names that are kept are equal up to case. -/
theorem nodup_firstSpellings (row : List Text) : ((firstSpellings row).map lowercase).Nodup := by
  induction row with
  | nil => exact List.nodup_nil
  | cons first row ih =>
    rw [firstSpellings, List.map_cons, List.nodup_cons]
    refine ⟨fun hmem => ?_, (List.filter_sublist.map lowercase).nodup ih⟩
    obtain ⟨other, hother, hcase⟩ := List.mem_map.mp hmem
    exact bne_iff_ne.mp (List.mem_filter.mp hother).2 hcase

/-- Names that the row spells already change nothing. -/
theorem firstSpellings_append_of_spells (h : ∀ name ∈ names, spells row name = true) :
    firstSpellings (row ++ names) = firstSpellings row := by
  have hnone : (firstSpellings names).filter (fun name => !spells row name) = [] := by
    refine List.filter_eq_nil_iff.mpr fun name hname => ?_
    rw [h name ((firstSpellings_sublist names).subset hname)]
    decide
  rw [firstSpellings_append, hnone, List.append_nil]

/-! ## Sets of first spellings -/

theorem names_keeping (row : List Text) : (keeping row).names = firstSpellings row := by
  rw [NameSet.names, keeping, List.map_map]
  exact List.map_id _

theorem foldings_keeping (row : List Text) :
    (keeping row).foldings = (firstSpellings row).map lowercase := by
  rw [foldings, keeping, List.map_map]
  rfl

/-- A set of first spellings covers the parts of all names of the row. -/
theorem covers_keeping_iff {value : Text} :
    (keeping row).covers value = true ↔ ∃ name ∈ row, lowercase value <:+: lowercase name := by
  have hentries : (keeping row).covers value = true ↔
      ∃ name ∈ firstSpellings row, lowercase value <:+: lowercase name := by
    simp [covers, keeping, occursIn_iff]
  rw [hentries]
  constructor
  · rintro ⟨name, hname, hpart⟩
    exact ⟨name, (firstSpellings_sublist row).subset hname, hpart⟩
  · rintro ⟨name, hname, hpart⟩
    have hspells : spells (firstSpellings row) name = true := by
      rw [spells_firstSpellings, spells_iff]
      exact ⟨name, hname, rfl⟩
    obtain ⟨kept, hkept, hcase⟩ := spells_iff.mp hspells
    exact ⟨kept, hkept, hcase ▸ hpart⟩

/-- Adding a name to a set of first spellings is adding it to the row. -/
theorem keeping_insert (row : List Text) (name : Text) :
    (keeping row).insert name = keeping (row ++ [name]) := by
  have hthere : ((keeping row).entries.any fun entry => entry.folded == lowercase name) =
      spells row name := by
    rw [← spells_firstSpellings, keeping, List.any_map]
    rfl
  unfold insert
  dsimp only
  rw [hthere]
  split
  · next h =>
    rw [keeping, keeping, firstSpellings_append_of_spells (List.forall_mem_singleton.mpr h)]
  · next h =>
    rw [Bool.not_eq_true] at h
    have hlast : (firstSpellings [name]).filter (fun other => !spells row other) = [name] := by
      simp [firstSpellings, h]
    rw [keeping, keeping, firstSpellings_append, hlast, List.map_append]
    rfl

/-- Adding names to a set of first spellings is adding them to the row. -/
theorem keeping_extend (row names : List Text) :
    (keeping row).extend names = keeping (row ++ names) := by
  -- Induction on the names, the row growing with each of them.
  induction names generalizing row with
  | nil => rw [List.append_nil]; rfl
  | cons name names ih =>
    have hfirst : (keeping row).extend (name :: names) = ((keeping row).insert name).extend names :=
      rfl
    rw [hfirst, keeping_insert, ih, List.append_assoc, List.singleton_append]

/-- After any number of calls a set holds the first spellings of all names it was given. -/
theorem ofCalls_eq_keeping (calls : List (List Text)) :
    ofCalls calls = keeping calls.flatten := by
  -- Induction on the calls, the last of them split off.
  induction calls using List.reverseRecOn with
  | nil => rfl
  | append_singleton calls names ih =>
    rw [ofCalls, List.foldl_append, List.foldl_cons, List.foldl_nil, ← ofCalls, ih, keeping_extend,
      List.flatten_append, List.flatten_singleton]

/-- A set that names were added to in any number of calls holds the first spelling of each of them
next to its lower-case form, and no form twice. It does not matter how the names were divided among
the calls, and names that are there in some spelling can be added again. A value is covered if it
occurs in a name that was added, both in lower case, whatever the order of the names. -/
theorem history_ofCalls (calls : List (List Text)) :
    ((ofCalls calls).names.length = (ofCalls calls).foldings.length ∧
      (∀ i : Nat, (ofCalls calls).foldings[i]? = (ofCalls calls).names[i]?.map lowercase) ∧
      (ofCalls calls).foldings.Nodup ∧
      (ofCalls calls).names = firstSpellings calls.flatten) ∧
    (∀ first second, ((ofCalls calls).extend first).extend second =
      (ofCalls calls).extend (first ++ second)) ∧
    (∀ again : List Text,
      (∀ name ∈ again, ∃ other ∈ calls.flatten, lowercase other = lowercase name) →
        (ofCalls calls).extend again = ofCalls calls) ∧
    (∀ value, (ofCalls calls).covers value = true ↔
      ∃ name ∈ calls.flatten, lowercase value <:+: lowercase name) ∧
    ∀ others : List (List Text),
      (others.flatten = calls.flatten → ofCalls others = ofCalls calls) ∧
      ((∀ name, name ∈ others.flatten ↔ name ∈ calls.flatten) →
        ∀ value, (ofCalls others).covers value = (ofCalls calls).covers value) := by
  rw [ofCalls_eq_keeping, names_keeping, foldings_keeping]
  refine ⟨⟨(List.length_map _).symm, fun i => List.getElem?_map, nodup_firstSpellings _, rfl⟩,
    fun first second => ?_, fun again hagain => ?_, fun value => covers_keeping_iff,
    fun others => ?_⟩
  · rw [keeping_extend, keeping_extend, keeping_extend, List.append_assoc]
  · have hspells := fun name hname => spells_iff.mpr (hagain name hname)
    rw [keeping_extend, keeping, firstSpellings_append_of_spells hspells, ← keeping]
  · rw [ofCalls_eq_keeping]
    refine ⟨fun hsame => by rw [hsame], fun hmembers value => ?_⟩
    rw [Bool.eq_iff_iff, covers_keeping_iff, covers_keeping_iff]
    exact exists_congr fun name => and_congr_left' (hmembers name)

/-- The first spelling of a name is kept, in whichever call the others come. -/
example :
    (ofCalls [["Rings".toList], ["RINGS".toList, "Maps".toList], ["rings".toList]]).names =
      ["Rings".toList, "Maps".toList] := by
  decide +kernel

end ItemFilter.NameSet
