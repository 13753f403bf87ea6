import ItemFilter.Storage

/-!
# Files that are written and read

A file is found at the place its path leads to, and the path keeps leading there as long as no
directory is lost. So a text that is written at a path is read there, the files at other places stay
as they are, and directories that were made once need not be made again.

## Main definitions

* `Storage.KeepsDirectories`: a storage that has all directories of another
* `Storage.SameEntries`: storages that differ in the bytes of files
* `Storage.IsTree`: a storage in which every entry is in a directory

## Main results

* `Storage.readText_eq_ok_iff`: the text of a file, by its place
* `Storage.write_of_readText`: a file that can be read can be written
* `Storage.readText_of_write`: what was written can be read
* `Storage.makeParents_of_ok`: the directories around a path are made once
-/

namespace ItemFilter.Storage

variable {storage before after : Storage} {path text : String} {place : Place}

/-- What is left of a storage when others write to it: its directories. -/
structure KeepsDirectories (before after : Storage) : Prop where
  /-- Relative paths start from the same place. -/
  workingDirectory_eq : after.workingDirectory = before.workingDirectory
  /-- Every directory is still there. -/
  directory {place : Place} :
    before.get? place = some .directory → after.get? place = some .directory

namespace KeepsDirectories

theorem refl (storage : Storage) : storage.KeepsDirectories storage := ⟨rfl, id⟩

theorem trans {last : Storage} (h : before.KeepsDirectories after)
    (h' : after.KeepsDirectories last) : before.KeepsDirectories last :=
  ⟨h'.workingDirectory_eq.trans h.workingDirectory_eq, fun hplace =>
    h'.directory (h.directory hplace)⟩

theorem start_eq (h : before.KeepsDirectories after) (parts : Path) :
    after.start parts = before.start parts := by
  rw [start, start, h.workingDirectory_eq]

end KeepsDirectories

theorem ne_nil_of_get? (h : storage.get? place ≠ some .directory) : place ≠ [] := by
  rintro rfl
  exact h rfl

/-- An entry that is set in place of no directory leaves the directories alone. -/
theorem keepsDirectories_set (h : storage.get? place ≠ some .directory) (entry : Entry) :
    storage.KeepsDirectories (storage.set place entry) where
  workingDirectory_eq := rfl
  directory {other} hother := by
    rw [get?_set _ (ne_nil_of_get? h)]
    split
    · next heq => exact absurd (heq ▸ hother) h
    · exact hother

/-! ## Following a path -/

/-- Where a step from a directory leads. -/
def next? (here : Place) : Step → Option Place
  | .up => some here.dropLast
  | .stay => some here
  | .into name => if longestName < name.utf8ByteSize then none else some (here ++ [name])

/-- Every step starts from a directory. -/
theorem follow_cons_eq_ok_iff {here : Place} {step : Step} {steps : List Step} :
    storage.follow here (step :: steps) = .ok place ↔
      storage.get? here = some .directory ∧
        ∃ middle, next? here step = some middle ∧ storage.follow middle steps = .ok place := by
  rw [follow.eq_def]
  rcases storage.get? here with _ | (bytes | _)
  · simp
  · simp
  · cases step with
    | up => simp [next?]
    | stay => simp [next?]
    | into name => by_cases hname : longestName < name.utf8ByteSize <;> simp [next?, hname]

/-- Steps lead to the same place as long as the directories are there. -/
theorem follow_of_keepsDirectories (h : before.KeepsDirectories after) {steps : List Step}
    {here : Place} (hfollow : before.follow here steps = .ok place) :
    after.follow here steps = .ok place := by
  induction steps generalizing here with
  | nil => exact hfollow
  | cons step steps ih =>
    obtain ⟨hhere, middle, hnext, hrest⟩ := follow_cons_eq_ok_iff.mp hfollow
    exact follow_cons_eq_ok_iff.mpr ⟨h.directory hhere, middle, hnext, ih hrest⟩

/-- A path with a slash at its end leads to no file. -/
theorem locate_eq_ok_iff :
    storage.locate path = .ok place ↔ ∃ parts, pathOf path = .ok parts ∧
      storage.follow (storage.start parts) parts.steps = .ok place ∧
      ∀ bytes, storage.get? place = some (.file bytes) → parts.endsInSlash = false := by
  constructor
  · intro h
    unfold locate at h
    split at h
    · cases h
    next parts hparts =>
      split at h
      · cases h
      next found hfollow =>
        split at h
        · cases h
        next hfile =>
          obtain rfl := Except.ok.inj h
          refine ⟨parts, hparts, hfollow, fun bytes hbytes => ?_⟩
          simpa using hfile bytes hbytes
  · rintro ⟨parts, hparts, hfollow, hfile⟩
    unfold locate
    rw [hparts]
    dsimp only
    rw [hfollow]
    dsimp only
    split
    · next bytes hbytes hslash =>
      rw [hfile bytes hbytes] at hslash
      cases hslash
    · rfl

/-! ## Overwriting files -/

/-- Two storages with the same entries, of which only the bytes of files differ. -/
structure SameEntries (before after : Storage) : Prop where
  /-- Relative paths start from the same place. -/
  workingDirectory_eq : after.workingDirectory = before.workingDirectory
  /-- There are the same directories. -/
  directory_iff {place : Place} :
    after.get? place = some .directory ↔ before.get? place = some .directory
  /-- There are the same entries. -/
  none_iff {place : Place} : after.get? place = none ↔ before.get? place = none

namespace SameEntries

theorem refl (storage : Storage) : storage.SameEntries storage := ⟨rfl, Iff.rfl, Iff.rfl⟩

theorem symm (h : before.SameEntries after) : after.SameEntries before :=
  ⟨h.workingDirectory_eq.symm, h.directory_iff.symm, h.none_iff.symm⟩

theorem trans {last : Storage} (h : before.SameEntries after) (h' : after.SameEntries last) :
    before.SameEntries last :=
  ⟨h'.workingDirectory_eq.trans h.workingDirectory_eq, h'.directory_iff.trans h.directory_iff,
    h'.none_iff.trans h.none_iff⟩

theorem keepsDirectories (h : before.SameEntries after) : before.KeepsDirectories after :=
  ⟨h.workingDirectory_eq, h.directory_iff.mpr⟩

theorem exists_file (h : before.SameEntries after) {new : ByteArray}
    (hnew : after.get? place = some (.file new)) : ∃ old, before.get? place = some (.file old) := by
  rcases hentry : before.get? place with _ | (old | _)
  · rw [h.none_iff.mpr hentry] at hnew
    cases hnew
  · exact ⟨old, rfl⟩
  · rw [h.directory_iff.mpr hentry] at hnew
    cases hnew

theorem locate_eq_ok (h : before.SameEntries after) (hlocate : before.locate path = .ok place) :
    after.locate path = .ok place := by
  obtain ⟨parts, hparts, hfollow, hfile⟩ := locate_eq_ok_iff.mp hlocate
  rw [← h.keepsDirectories.start_eq] at hfollow
  refine locate_eq_ok_iff.mpr
    ⟨parts, hparts, follow_of_keepsDirectories h.keepsDirectories hfollow, fun bytes hbytes => ?_⟩
  obtain ⟨old, hold⟩ := h.exists_file hbytes
  exact hfile old hold

theorem has_of_has (h : before.SameEntries after) (hhas : before.has path = true) :
    after.has path = true := by
  unfold has at hhas ⊢
  rcases hlocate : before.locate path with e | place
  · simp [hlocate] at hhas
  · rw [h.locate_eq_ok hlocate]
    rw [hlocate] at hhas
    simpa [Option.isSome_iff_ne_none, h.none_iff] using hhas

theorem has_eq (h : before.SameEntries after) (path : String) :
    after.has path = before.has path :=
  Bool.eq_iff_iff.mpr ⟨h.symm.has_of_has, h.has_of_has⟩

end SameEntries

/-- A file that is set in place of a file changes no other entry. -/
theorem sameEntries_set {old : ByteArray} (h : storage.get? place = some (.file old))
    (new : ByteArray) : storage.SameEntries (storage.set place (.file new)) := by
  have hplace : storage.get? place ≠ some .directory := by simp [h]
  have hset (other : Place) : (storage.set place (.file new)).get? other =
      if other = place then some (.file new) else storage.get? other :=
    get?_set _ (ne_nil_of_get? hplace) ..
  refine ⟨rfl, fun {other} => ?_, fun {other} => ?_⟩
  · rw [hset]
    split
    · next heq => simp [heq, h]
    · exact Iff.rfl
  · rw [hset]
    split
    · next heq => simp [heq, h]
    · exact Iff.rfl

theorem setIn_of_lookup {entry : Entry} {entries : List (Place × Entry)}
    (h : entries.lookup place = some entry) : setIn place entry entries = entries := by
  induction entries with
  | nil => cases h
  | cons first entries ih =>
    obtain ⟨other, old⟩ := first
    rw [setIn]
    split
    · next hother =>
      subst hother
      obtain rfl : old = entry := by simpa using h
      rfl
    · next hother =>
      have hne : (place == other) = false := beq_eq_false_iff_ne.mpr hother
      rw [List.lookup_cons, hne] at h
      rw [ih h]

/-- Setting an entry to what it is changes nothing. -/
theorem set_of_get? {entry : Entry} (hplace : place ≠ []) (h : storage.get? place = some entry) :
    storage.set place entry = storage := by
  rw [get?, if_neg hplace] at h
  rw [set, setIn_of_lookup h]

/-! ## Reading and writing -/

theorem fromUTF8?_toUTF8 (text : String) : String.fromUTF8? text.toUTF8 = some text :=
  dif_pos text.isValidUTF8

theorem fromUTF8?_eq_some_iff {bytes : ByteArray} :
    String.fromUTF8? bytes = some text ↔ bytes = text.toUTF8 := by
  constructor
  · intro h
    unfold String.fromUTF8? at h
    split at h
    · obtain rfl := Option.some.inj h
      rfl
    · cases h
  · rintro rfl
    exact fromUTF8?_toUTF8 text

theorem toUTF8_inj {other : String} (h : text.toUTF8 = other.toUTF8) : text = other := by
  rw [← Option.some_inj, ← fromUTF8?_toUTF8 text, h, fromUTF8?_toUTF8]

/-- A file holds one text. -/
theorem text_eq_of_get? {other : String} (h : storage.get? place = some (.file text.toUTF8))
    (hother : storage.get? place = some (.file other.toUTF8)) : text = other :=
  toUTF8_inj (Entry.file.inj (Option.some.inj (h.symm.trans hother)))

/-- The text at a path is that of the file at its place. -/
theorem readText_eq_ok_iff :
    storage.readText path = .ok text ↔
      ∃ place, storage.locate path = .ok place ∧
        storage.get? place = some (.file text.toUTF8) := by
  constructor
  · intro h
    unfold readText read at h
    rcases hlocate : storage.locate path with e | place
    · rw [hlocate] at h
      cases h
    · rw [hlocate] at h
      rcases hentry : storage.get? place with _ | (bytes | _)
      · simp [hentry] at h
      · simp only [hentry] at h
        split at h
        · next found hfound =>
          obtain rfl := Except.ok.inj h
          exact ⟨place, rfl, by rw [hentry, fromUTF8?_eq_some_iff.mp hfound]⟩
        · cases h
      · simp [hentry] at h
  · rintro ⟨place, hlocate, hentry⟩
    simp only [readText, read, hlocate, hentry, fromUTF8?_toUTF8]

theorem has_of_readText (h : storage.readText path = .ok text) : storage.has path = true := by
  obtain ⟨place, hlocate, hentry⟩ := readText_eq_ok_iff.mp h
  simp [has, hlocate, hentry]

/-- A file that can be read can be written. -/
theorem write_of_readText (hlocate : storage.locate path = .ok place) {old : ByteArray}
    (hold : storage.get? place = some (.file old)) (new : String) :
    storage.write path new = .ok (storage.set place (.file new.toUTF8)) := by
  obtain ⟨parts, hparts, hfollow, hfile⟩ := locate_eq_ok_iff.mp hlocate
  have hsteps : parts.stepsToFile = parts.steps := by
    unfold Path.stepsToFile
    rw [hfile old hold]
  rw [write, hparts]
  dsimp only
  rw [hsteps, hfollow]
  dsimp only
  rw [hold]

/-! ## Trees -/

/-- A storage in which every entry is in a directory, and the working directory is one. -/
structure IsTree (storage : Storage) : Prop where
  /-- What an entry is in is a directory. -/
  parent {place : Place} :
    storage.get? place ≠ none → storage.get? place.dropLast = some .directory
  /-- The working directory is a directory. -/
  workingDirectory : storage.get? storage.workingDirectory = some .directory

namespace IsTree

theorem start (h : storage.IsTree) (parts : Path) :
    storage.get? (storage.start parts) = some .directory := by
  rw [Storage.start]
  split
  · rfl
  · exact h.workingDirectory

/-- What is set in a directory, and in place of none, leaves a tree. -/
theorem set (h : storage.IsTree) (hparent : storage.get? place.dropLast = some .directory)
    (hplace : storage.get? place ≠ some .directory) (entry : Entry) :
    (storage.set place entry).IsTree where
  parent {other} hother := by
    -- The directory of an entry is not the one that is set.
    have hdirectory : storage.get? other.dropLast = some .directory := by
      rw [get?_set _ (ne_nil_of_get? hplace)] at hother
      split at hother
      · next heq => exact heq ▸ hparent
      · exact h.parent hother
    exact (keepsDirectories_set hplace entry).directory hdirectory
  workingDirectory := (keepsDirectories_set hplace entry).directory h.workingDirectory

end IsTree

/-- The last step starts from where the others lead to. -/
theorem exists_follow_of_concat {steps : List Step} {step : Step} {here : Place}
    (h : storage.follow here (steps ++ [step]) = .ok place) :
    ∃ middle, storage.follow middle [step] = .ok place := by
  induction steps generalizing here with
  | nil => exact ⟨here, h⟩
  | cons first steps ih =>
    obtain ⟨-, middle, -, hrest⟩ := follow_cons_eq_ok_iff.mp h
    exact ih hrest

/-- A step that goes into nothing leads to a directory. -/
theorem IsTree.directory_of_follow (h : storage.IsTree) {step : Step} {here : Place}
    (hstep : ∀ name, step ≠ .into name) (hfollow : storage.follow here [step] = .ok place) :
    storage.get? place = some .directory := by
  obtain ⟨hhere, middle, hnext, hrest⟩ := follow_cons_eq_ok_iff.mp hfollow
  obtain rfl := Except.ok.inj hrest
  cases step with
  | up =>
    obtain rfl := Option.some.inj hnext
    exact h.parent (by simp [hhere])
  | stay =>
    obtain rfl := Option.some.inj hnext
    exact hhere
  | into name => exact absurd rfl (hstep name)

/-- A path that a file can be written to has no slash at its end. -/
theorem IsTree.stepsToFile_eq (h : storage.IsTree) {parts : Path}
    (hfollow : storage.follow (storage.start parts) parts.stepsToFile = .ok place)
    (hplace : storage.get? place ≠ some .directory) :
    parts.endsInSlash = false ∧ parts.stepsToFile = parts.steps := by
  cases hslash : parts.endsInSlash with
  | false => simp [Path.stepsToFile, hslash]
  | true =>
    -- With a slash at the end, the last step leads to a directory.
    exfalso
    apply hplace
    rcases List.eq_nil_or_concat parts.steps with hnil | ⟨steps, step, hsteps⟩
    · have hstart : storage.start parts = place := by
        simpa [Path.stepsToFile, hslash, hnil, follow] using hfollow
      exact hstart ▸ h.start parts
    · by_cases hinto : ∃ name, step = .into name
      · obtain ⟨name, rfl⟩ := hinto
        have hfile : parts.stepsToFile = steps ++ [.stay] := by
          simp [Path.stepsToFile, hslash, hsteps]
        obtain ⟨middle, hlast⟩ := exists_follow_of_concat (hfile ▸ hfollow)
        exact h.directory_of_follow (fun name => by simp) hlast
      · have hfile : parts.stepsToFile = steps ++ [step] := by
          cases step with
          | into name => exact absurd ⟨name, rfl⟩ hinto
          | up => simp [Path.stepsToFile, hslash, hsteps]
          | stay => simp [Path.stepsToFile, hslash, hsteps]
        obtain ⟨middle, hlast⟩ := exists_follow_of_concat (hfile ▸ hfollow)
        exact h.directory_of_follow (fun name hname => hinto ⟨name, hname⟩) hlast

/-- What was written can be read. -/
theorem readText_of_write (h : before.IsTree) (hwrite : before.write path text = .ok after) :
    before.KeepsDirectories after ∧ after.readText path = .ok text := by
  unfold write at hwrite
  rcases hparts : pathOf path with e | parts
  · simp [hparts] at hwrite
  rcases hfollow : before.follow (before.start parts) parts.stepsToFile with e | place
  · simp [hparts, hfollow] at hwrite
  by_cases hplace : before.get? place = some .directory
  · simp [hparts, hfollow, hplace] at hwrite
  obtain rfl : before.set place (.file text.toUTF8) = after := by
    rcases hentry : before.get? place with _ | (bytes | _)
    · simpa [hparts, hfollow, hentry] using hwrite
    · simpa [hparts, hfollow, hentry] using hwrite
    · exact absurd hentry hplace
  obtain ⟨hslash, hsteps⟩ := h.stepsToFile_eq hfollow hplace
  have hkeeps := keepsDirectories_set hplace (.file text.toUTF8)
  rw [hsteps, ← hkeeps.start_eq] at hfollow
  refine ⟨hkeeps, readText_eq_ok_iff.mpr ⟨place, ?_, ?_⟩⟩
  · exact locate_eq_ok_iff.mpr
      ⟨parts, hparts, follow_of_keepsDirectories hkeeps hfollow, fun _ _ => hslash⟩
  · rw [get?_set _ (ne_nil_of_get? hplace), if_pos rfl]

/-! ## Making directories -/

/-- Making directories removes none. -/
theorem keepsDirectories_makeDirectories (storage : Storage) (here : Place) (made : Bool)
    (steps : List Step) :
    storage.KeepsDirectories (storage.makeDirectories here made steps).2 := by
  induction steps generalizing storage here made with
  | nil => exact .refl storage
  | cons step steps ih =>
    cases step with
    | up => exact ih ..
    | stay => exact ih ..
    | into name =>
      rw [makeDirectories]
      split
      · exact .refl storage
      · dsimp only
        split
        · exact ih ..
        · exact .refl storage
        · next hnone => exact (keepsDirectories_set (by simp [hnone]) _).trans (ih ..)

/-- Directories that are there need not be made. -/
theorem makeDirectories_of_ok {made : Bool} {steps : List Step} {here : Place}
    (hmade : before.makeDirectories here made steps = (.ok (), storage))
    (h : storage.KeepsDirectories after) (made' : Bool) :
    after.makeDirectories here made' steps = (.ok (), after) := by
  induction steps generalizing before here made made' with
  | nil => rfl
  | cons step steps ih =>
    cases step with
    | up => exact ih hmade made'
    | stay => exact ih hmade made'
    | into name =>
      rw [makeDirectories] at hmade ⊢
      split at hmade
      · cases hmade
      next hname =>
        rw [if_neg hname]
        dsimp only at hmade ⊢
        -- Whether the directory was there or was made, it is there now.
        have hthere : ∀ middle : Storage, middle.get? (here ++ [name]) = some .directory →
            ∀ made, middle.makeDirectories (here ++ [name]) made steps = (.ok (), storage) →
            after.get? (here ++ [name]) = some .directory := by
          intro middle hmiddle made hrest
          have hkeeps := keepsDirectories_makeDirectories middle (here ++ [name]) made steps
          rw [hrest] at hkeeps
          exact h.directory (hkeeps.directory hmiddle)
        split at hmade
        · next hdirectory =>
          rw [hthere _ hdirectory _ hmade]
          exact ih hmade made'
        · cases hmade
        · have hset : (before.set (here ++ [name]) .directory).get? (here ++ [name]) =
              some .directory := by rw [get?_set _ (by simp), if_pos rfl]
          rw [hthere _ hset _ hmade]
          exact ih hmade made'

/-- Directories are made in directories. -/
theorem IsTree.makeDirectories (h : storage.IsTree) {here : Place}
    (hhere : storage.get? here = some .directory) (made : Bool) (steps : List Step) :
    (storage.makeDirectories here made steps).2.IsTree := by
  induction steps generalizing storage here made with
  | nil => exact h
  | cons step steps ih =>
    cases step with
    | up => exact ih h (h.parent (by simp [hhere])) made
    | stay => exact ih h hhere made
    | into name =>
      rw [Storage.makeDirectories]
      split
      · exact h
      · dsimp only
        split
        · next hdirectory => exact ih h hdirectory made
        · exact h
        · next hnone =>
          refine ih (h.set (by simpa using hhere) (by simp [hnone]) _) ?_ true
          rw [get?_set _ (by simp), if_pos rfl]

/-- The directories around a path are made once. -/
theorem makeParents_of_ok (hmade : before.makeParents path = (.ok (), storage))
    (h : storage.KeepsDirectories after) : after.makeParents path = (.ok (), after) := by
  unfold makeParents at hmade ⊢
  dsimp only at hmade ⊢
  split at hmade
  · next haround => rw [if_pos haround]
  next haround =>
    rw [if_neg haround]
    rcases hparts : pathOf (Path.around path) with e | parts
    · simp [hparts] at hmade
    · rw [hparts] at hmade
      dsimp only at hmade ⊢
      have hkeeps := keepsDirectories_makeDirectories before (before.start parts) false parts.steps
      rw [hmade] at hkeeps
      rw [(hkeeps.trans h).start_eq]
      exact makeDirectories_of_ok hmade h false

theorem IsTree.makeParents (h : storage.IsTree) (path : String) :
    (storage.makeParents path).2.IsTree := by
  unfold Storage.makeParents
  dsimp only
  split
  · exact h
  · split
    · exact h
    · exact h.makeDirectories (h.start _) false _

end ItemFilter.Storage
