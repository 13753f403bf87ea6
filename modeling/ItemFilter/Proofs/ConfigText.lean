import ItemFilter.Config.Reader
import ItemFilter.Config.Writer
import ItemFilter.Proofs.TomlStrings

/-!
# Configurations that are read as they were written

A configuration is written line by line, and read statement by statement. The lines are read as the
statements they stand for, whatever comes behind them, and carrying out the statements gives the
configuration back.

## Main definitions

* `Toml.ReadsAs`: a text that is read as statements
* `Config.statements`: the statements that a configuration is written as

## Main results

* `Toml.readValue_spellString`, `Toml.readValue_spellStrings`: values are read as they were written
* `Config.readsAs_toToml`: a configuration is read as its statements
* `Config.ofToml?_toToml`: a configuration is read as it was written
* `Config.ofToml?_template`: the document to start from makes no settings
-/

namespace ItemFilter

namespace Toml

variable {c : Char} {text rest : Text}

/-! ## White space -/

theorem skipBlanks_cons (h : isBlank c = false) : skipBlanks (c :: text) = c :: text := by
  simp [skipBlanks, h]

theorem skipComment_cons (h : c ≠ '#') : skipComment (c :: text) = c :: text := by
  unfold skipComment
  split
  · next heq => exact absurd (List.cons.inj heq).1 h
  · rfl

/-- Up to a visible character there is nothing but white space. -/
theorem skipLines_of_skipBlanks (h : skipBlanks text = c :: rest) (hplain : isPlain c = true)
    (hcomment : c ≠ '#') : skipLines text = c :: rest := by
  rw [skipLines, skipLinesWith, h, skipComment_cons hcomment, lineBreak?_of_isPlain hplain]

theorem skipLines_break (text : Text) : skipLines ('\n' :: text) = skipLines text := rfl

theorem lineEnd?_break (rest : Text) : lineEnd? ('\n' :: rest) = some rest := rfl

/-! ## Strings and lists of strings -/

/-- A string starts with a quote of either kind. -/
theorem spellString_head (text : Text) :
    ∃ c more, spellString text = c :: more ∧ (c = '"' ∨ c = '\'') := by
  unfold spellString
  dsimp only
  split
  · exact ⟨'"', _, rfl, Or.inl rfl⟩
  split
  · exact ⟨'\'', _, rfl, Or.inr rfl⟩
  split
  · exact ⟨'"', _, rfl, Or.inl rfl⟩
  split
  · exact ⟨'\'', _, rfl, Or.inr rfl⟩
  split
  · exact ⟨'"', _, rfl, Or.inl rfl⟩
  · exact ⟨'"', _, rfl, Or.inl rfl⟩

/-- A string is read as it was written, if no quote follows. -/
theorem readValue_spellString (depth : Nat) (text : Text) (hdouble : rest.head? ≠ some '"')
    (hsingle : rest.head? ≠ some '\'') :
    readValue depth (spellString text ++ rest) = some (.string text, rest) := by
  have hread := readString_spellString text hdouble hsingle
  obtain ⟨c, more, hspell, hc⟩ := spellString_head text
  rw [hspell, List.cons_append] at hread ⊢
  rw [readValue.eq_def]
  dsimp only
  rw [if_pos hc, hread]
  rfl

/-- Behind white space, the quote of a string is what comes next. -/
theorem skipLines_spellString (front : Text) (hfront : ∀ c ∈ front, isBlank c = true)
    (text rest : Text) :
    skipLines (front ++ spellString text ++ rest) = spellString text ++ rest := by
  obtain ⟨c, more, hspell, hc⟩ := spellString_head text
  have hall : isBlank c = false ∧ isPlain c = true ∧ c ≠ '#' := by
    rcases hc with rfl | rfl
    · decide
    · decide
  have hskip : skipBlanks (front ++ (c :: (more ++ rest))) = c :: (more ++ rest) := by
    rw [skipBlanks, List.dropWhile_append_of_pos hfront]
    exact skipBlanks_cons hall.1
  rw [hspell, List.append_assoc, List.cons_append]
  exact skipLines_of_skipBlanks hskip hall.2.1 hall.2.2

/-- The items of a list, each on a line of its own. -/
def itemLines (texts : List Text) : Text :=
  texts.flatMap fun text => "    ".toList ++ spellString text ++ ",\n".toList

theorem length_le_itemLines (texts : List Text) : texts.length ≤ (itemLines texts).length := by
  induction texts with
  | nil => exact Nat.le_refl 0
  | cons text texts ih =>
    rw [itemLines] at ih ⊢
    simp only [List.flatMap_cons, List.length_append, List.length_cons]
    have hlines : (",\n".toList : Text).length = 2 := by decide
    omega

section

variable {read : Text → Option (Value × Text)} {item behind : Text} {value : Value}
  (hskip : skipLines text = item) (hitem : item.head? ≠ some ']')
  (hread : read item = some (value, behind))
include hskip hitem hread

/-- An item in front of a bracket is the last one. -/
theorem readItems_last (fuel : Nat) (hend : skipLines behind = ']' :: rest) :
    readItems read (fuel + 1) text = some ([value], rest) := by
  rw [readItems, hskip]
  split
  · exact absurd rfl hitem
  · simp only [hread, Option.bind_eq_bind, Option.bind_some, hend]

/-- Further items follow an item in front of a comma. -/
theorem readItems_more (fuel : Nat) (hcomma : skipLines behind = ',' :: rest) :
    readItems read (fuel + 1) text =
      (readItems read fuel rest).map fun (items, rest) => (value :: items, rest) := by
  rw [readItems, hskip]
  split
  · exact absurd rfl hitem
  · simp only [hread, Option.bind_eq_bind, Option.bind_some, hcomma]
    cases readItems read fuel rest <;> rfl

end

theorem head?_spellString_ne (text rest : Text) : (spellString text ++ rest).head? ≠ some ']' := by
  obtain ⟨c, more, hspell, hc⟩ := spellString_head text
  rw [hspell, List.cons_append, List.head?_cons]
  rcases hc with rfl | rfl
  · decide
  · decide

theorem readItems_itemLines (depth fuel : Nat) (texts : List Text) (rest : Text)
    (h : texts.length < fuel) :
    readItems (readValue depth) fuel ('\n' :: (itemLines texts ++ ']' :: rest)) =
      some (texts.map .string, rest) := by
  -- Induction on the texts. Each of them takes one step of the fuel, and the bracket the last one.
  induction texts generalizing fuel with
  | nil =>
    obtain ⟨fuel, rfl⟩ := Nat.exists_eq_add_of_lt h
    rfl
  | cons text texts ih =>
    cases fuel with
    | zero => cases h
    | succ fuel =>
      rw [List.length_cons] at h
      have hskip := skipLines_spellString "    ".toList (List.all_eq_true.mp (by decide)) text
        (',' :: '\n' :: (itemLines texts ++ ']' :: rest))
      have hline : itemLines (text :: texts) ++ ']' :: rest = "    ".toList ++ spellString text ++
          (',' :: '\n' :: (itemLines texts ++ ']' :: rest)) := by
        simp [itemLines]
      rw [hline, readItems_more ((skipLines_break _).trans hskip) (head?_spellString_ne _ _)
        (readValue_spellString depth text (by simp) (by simp)) fuel
        (skipLines_of_skipBlanks (skipBlanks_cons (by decide)) (by decide) (by decide)),
        ih fuel (by omega)]
      rfl

/-- A list of strings is read as it was written. -/
theorem readValue_spellStrings (depth : Nat) (texts : List Text) (rest : Text) :
    readValue (depth + 1) (spellStrings texts ++ rest) =
      some (.array (texts.map .string), rest) := by
  have hbracket : ∀ body : Text, readValue (depth + 1) ('[' :: body) =
      (readItems (readValue depth) (body.length + 1) body).map fun (items, rest) =>
        (.array items, rest) := fun body => by
    rw [readValue.eq_def]
    rfl
  match texts with
  | [] => rfl
  | [text] =>
    have hskip : skipLines (spellString text ++ (']' :: rest)) =
        spellString text ++ (']' :: rest) :=
      skipLines_spellString [] nofun text (']' :: rest)
    have hspell : spellStrings [text] ++ rest = '[' :: (spellString text ++ (']' :: rest)) := by
      simp [spellStrings]
    rw [hspell, hbracket, readItems_last hskip (head?_spellString_ne _ _)
      (readValue_spellString depth text (by simp) (by simp)) _
      (skipLines_of_skipBlanks (skipBlanks_cons (by decide)) (by decide) (by decide))]
    rfl
  | first :: second :: texts =>
    have hspell : spellStrings (first :: second :: texts) ++ rest =
        '[' :: '\n' :: (itemLines (first :: second :: texts) ++ ']' :: rest) := by
      simp [spellStrings, itemLines]
    have hlength := length_le_itemLines (first :: second :: texts)
    rw [hspell, hbracket, readItems_itemLines depth _ _ rest
      (by simp only [List.length_cons, List.length_append] at hlength ⊢; omega)]
    rfl

/-! ## Truth values and the version -/

theorem readValue_spellTruth (depth : Nat) (b : Bool) (rest : Text) :
    readValue depth (Config.spellTruth b ++ rest) = some (.boolean b, rest) := by
  cases b with
  | true =>
    rw [readValue.eq_def]
    rfl
  | false =>
    rw [readValue.eq_def]
    rfl

/-- A single digit in front of a line break is an integer. -/
theorem readValue_version (depth : Nat) (rest : Text) :
    readValue depth (Nat.toDigits 10 Config.version ++ '\n' :: rest) =
      some (.integer 1, '\n' :: rest) := by
  have hdigits : Nat.toDigits 10 Config.version = ['1'] := by decide
  -- The numbers in dates and times have two digits or more, so one digit starts neither.
  have hcount : ∀ count, 2 ≤ count → readCount count ('1' :: '\n' :: rest) = none := by
    intro count hle
    obtain ⟨count, rfl⟩ := Nat.exists_eq_add_of_le hle
    rw [readCount, if_neg]
    rw [Nat.add_comm, List.take_succ_cons, List.take_succ_cons]
    simp
  have hdate : readDateTime ('1' :: '\n' :: rest) = none := by
    rw [readDateTime, readDate, hcount 4 (by decide)]
    dsimp only [Option.bind_eq_bind, Option.bind_none]
    rw [readTime, readClock, hcount 2 (by decide)]
    rfl
  rw [hdigits, readValue.eq_def]
  dsimp only [List.singleton_append]
  rw [if_neg (by decide), if_neg (by decide), if_neg (by decide), if_neg (by decide),
    if_neg (by decide), readNumber, hdate]
  rfl

/-! ## Statements -/

/-- A key that needs no quotes. -/
structure IsBareKey (key : Text) : Prop where
  /-- There is a character. -/
  ne_nil : key ≠ []
  /-- All characters can stand in a key. -/
  forall_mem : ∀ c ∈ key, isKeyChar c = true

instance (key : Text) : Decidable (IsBareKey key) :=
  decidable_of_iff (key ≠ [] ∧ key.all isKeyChar = true)
    ⟨fun h => ⟨h.1, List.all_eq_true.mp h.2⟩, fun h => ⟨h.1, List.all_eq_true.mpr h.2⟩⟩

theorem isPlain_of_isKeyChar (h : isKeyChar c = true) : isPlain c = true := by
  have hvisible : 33 ≤ c.toNat ∧ c.toNat ≤ 126 := by
    delta isKeyChar Char.isAlphanum Char.isAlpha Char.isUpper Char.isLower Char.isDigit at h
    simp only [ge_iff_le, UInt32.le_iff_toNat_le, Bool.or_eq_true, Bool.and_eq_true,
      decide_eq_true_eq, beq_iff_eq] at h
    rcases h with (((⟨h₁, h₂⟩ | ⟨h₁, h₂⟩) | ⟨h₁, h₂⟩) | rfl) | rfl
    · exact ⟨Nat.le_trans (by decide) h₁, Nat.le_trans h₂ (by decide)⟩
    · exact ⟨Nat.le_trans (by decide) h₁, Nat.le_trans h₂ (by decide)⟩
    · exact ⟨Nat.le_trans (by decide) h₁, Nat.le_trans h₂ (by decide)⟩
    · decide
    · decide
  simp only [isPlain, Bool.or_eq_true, beq_iff_eq, Bool.and_eq_true, decide_eq_true_eq, bne_iff_ne]
  omega

/-- A key starts with none of the characters that mean something else there. -/
theorem IsBareKey.exists_cons {key : Text} (h : IsBareKey key) :
    ∃ c more, key = c :: more ∧ isPlain c = true ∧ isBlank c = false ∧
      c ∉ ['#', '[', '"', '\''] := by
  cases key with
  | nil => exact absurd rfl h.ne_nil
  | cons c more =>
    have hc := h.forall_mem c (List.mem_cons_self ..)
    refine ⟨c, more, rfl, isPlain_of_isKeyChar hc, ?_, ?_⟩
    · rw [← Bool.not_eq_true]
      intro hblank
      simp only [isBlank, Bool.or_eq_true, beq_iff_eq] at hblank
      rcases hblank with rfl | rfl
      · exact absurd hc (by decide)
      · exact absurd hc (by decide)
    · intro hmem
      have hall : ['#', '[', '"', '\''].any isKeyChar = false := by decide
      exact List.any_eq_false.mp hall c hmem hc

theorem readKeyPart_bare {key : Text} (hkey : IsBareKey key) (hc : isKeyChar c = false) :
    readKeyPart (key ++ c :: rest) = some (key, c :: rest) := by
  have htake : (key ++ c :: rest).takeWhile isKeyChar = key := by
    rw [List.takeWhile_append_of_pos hkey.forall_mem, List.takeWhile_cons, hc]
    simp
  obtain ⟨d, more, hcons, -, -, hd⟩ := hkey.exists_cons
  unfold readKeyPart
  split
  · next heq =>
    rw [hcons, List.cons_append] at heq
    exact absurd (by simp [(List.cons.inj heq).1]) hd
  · next heq =>
    rw [hcons, List.cons_append] at heq
    exact absurd (by simp [(List.cons.inj heq).1]) hd
  · rw [htake, if_neg (by simpa using hkey.ne_nil), List.drop_left]

/-- A key is read up to what cannot be part of it. -/
theorem readKey_bare {key : Text} (hkey : IsBareKey key) (hc : isKeyChar c = false)
    (hdot : (skipBlanks (c :: rest)).head? ≠ some '.') :
    readKey (key ++ c :: rest) = some (([], key), skipBlanks (c :: rest)) := by
  have hskip : skipBlanks (key ++ c :: rest) = key ++ c :: rest := by
    obtain ⟨d, more, rfl, -, hd, -⟩ := hkey.exists_cons
    exact skipBlanks_cons hd
  have hparts : readKeyParts ((key ++ c :: rest).length + 1) (key ++ c :: rest) =
      some ([key], skipBlanks (c :: rest)) := by
    rw [readKeyParts, hskip, readKeyPart_bare hkey hc, Option.bind_eq_bind, Option.bind_some]
    dsimp only
    split
    · next heq =>
      rw [heq] at hdot
      exact absurd rfl hdot
    · rfl
  rw [readKey, hparts]
  rfl

theorem readStatement_of_head (h : text.head? ≠ some '[') :
    readStatement text =
      (readAssignment (readValue (depthLimit - 1)) text).map fun (a, rest) =>
        (.assignment a, rest) := by
  unfold readStatement
  split
  · exact absurd rfl h
  · exact absurd rfl h
  · cases readAssignment (readValue (depthLimit - 1)) _ <;> rfl

/-- A key with a value is read as an assignment. -/
theorem readStatement_keyLine {key value : Text} {v : Value} (hkey : IsBareKey key)
    (hvalue : ∃ c more, value = c :: more ∧ isBlank c = false)
    (hread : readValue (depthLimit - 1) (value ++ '\n' :: rest) = some (v, '\n' :: rest)) :
    readStatement (key ++ (' ' :: '=' :: ' ' :: (value ++ '\n' :: rest))) =
      some (.assignment ⟨[], key, v⟩, '\n' :: rest) := by
  have hname : readKey (key ++ (' ' :: '=' :: ' ' :: (value ++ '\n' :: rest))) =
      some (([], key), '=' :: ' ' :: (value ++ '\n' :: rest)) :=
    readKey_bare hkey (by decide) (by simp [skipBlanks, isBlank])
  have hskip : skipBlanks (' ' :: (value ++ '\n' :: rest)) = value ++ '\n' :: rest := by
    obtain ⟨c, more, rfl, hblank⟩ := hvalue
    exact skipBlanks_cons hblank
  have hassignment : readAssignment (readValue (depthLimit - 1))
      (key ++ (' ' :: '=' :: ' ' :: (value ++ '\n' :: rest))) =
        some (⟨[], key, v⟩, '\n' :: rest) := by
    simp only [readAssignment, hname, Option.bind_eq_bind, Option.bind_some, skipChar, if_true,
      hskip, hread]
  rw [readStatement_of_head, hassignment]
  · rfl
  · obtain ⟨d, more, rfl, -, -, hd⟩ := hkey.exists_cons
    rintro heq
    exact absurd (by simp [Option.some.inj heq]) hd

/-- The header of a table is read. -/
theorem readStatement_header {name : Text} (hname : IsBareKey name) :
    readStatement ('[' :: (name ++ ']' :: rest)) = some (.table [] name, rest) := by
  have hkey : readKey (name ++ ']' :: rest) = some (([], name), ']' :: rest) :=
    readKey_bare hname (by decide) (by simp [skipBlanks, isBlank])
  obtain ⟨d, more, hcons, -, -, hd⟩ := hname.exists_cons
  unfold readStatement
  split
  · next heq =>
    rw [hcons, List.cons_append] at heq
    exact absurd (by simp [(List.cons.inj (List.cons.inj heq).2).1]) hd
  · next heq =>
    obtain rfl := (List.cons.inj heq).2
    simp only [hkey, Option.bind_eq_bind, Option.bind_some, skipChar, if_true]
  · next hother => exact absurd rfl (hother _)

/-! ## Documents -/

/-- A text that is read as statements. -/
def ReadsAs (text : Text) (statements : List Statement) : Prop :=
  ∀ fuel, text.length < fuel → readStatementsWith fuel text = some statements

variable {statements : List Statement}

theorem readsAs_nil : ReadsAs [] [] := by
  intro fuel h
  obtain ⟨fuel, rfl⟩ := Nat.exists_eq_add_of_lt h
  rfl

/-- Line breaks do not count. -/
theorem ReadsAs.break (h : ReadsAs text statements) : ReadsAs ('\n' :: text) statements := by
  intro fuel hfuel
  rw [List.length_cons] at hfuel
  rw [← h fuel (by omega)]
  cases fuel with
  | zero => rfl
  | succ fuel => rfl

/-- A statement on a line of its own is the first of a document. -/
theorem ReadsAs.line (h : ReadsAs rest statements) {line : Text} {statement : Statement}
    (hline : ∃ c more, line = c :: more ∧ isPlain c = true ∧ isBlank c = false ∧ c ≠ '#')
    (hread : readStatement (line ++ '\n' :: rest) = some (statement, '\n' :: rest)) :
    ReadsAs (line ++ '\n' :: rest) (statement :: statements) := by
  obtain ⟨c, more, rfl, hplain, hblank, hcomment⟩ := hline
  intro fuel hfuel
  cases fuel with
  | zero => cases hfuel
  | succ fuel =>
    rw [List.length_append, List.length_cons] at hfuel
    have hskip : skipLines (c :: more ++ '\n' :: rest) = c :: (more ++ '\n' :: rest) :=
      skipLines_of_skipBlanks (skipBlanks_cons hblank) hplain hcomment
    rw [readStatementsWith, hskip]
    dsimp only
    rw [skipComment_cons hcomment]
    dsimp only
    rw [List.cons_append] at hread
    simp only [hread, Option.bind_eq_bind, Option.bind_some, lineEnd?_break,
      h fuel (by rw [List.length_cons] at hfuel; omega)]

theorem ReadsAs.read (h : ReadsAs text statements) (hmark : text.head? ≠ some '\ufeff') :
    readStatements text = some statements := by
  unfold readStatements
  split
  · exact absurd rfl hmark
  · exact h _ (Nat.lt_succ_self _)

end Toml

namespace Config

open Toml

variable {rest : Text} {others : List Statement}

/-! ## The lines of a configuration -/

/-- A list of strings as a value. -/
def textsValue (texts : List Text) : Toml.Value :=
  .array (texts.map .string)

/-- The assignment of a line. -/
def assignment (key : String) (value : Toml.Value) : Statement :=
  .assignment ⟨[], key.toList, value⟩

theorem readsAs_keyLine (h : ReadsAs rest others) (key : String) {value : Text} {v : Toml.Value}
    (hkey : IsBareKey key.toList) (hvalue : ∃ c more, value = c :: more ∧ isBlank c = false)
    (hread : ∀ rest, readValue (depthLimit - 1) (value ++ '\n' :: rest) = some (v, '\n' :: rest)) :
    ReadsAs (keyLine key value ++ rest) (assignment key v :: others) := by
  have hline : keyLine key value ++ rest =
      (key.toList ++ (' ' :: '=' :: ' ' :: value)) ++ '\n' :: rest := by
    simp [keyLine]
  rw [hline]
  refine h.line ?_ ?_
  · obtain ⟨c, more, hcons, hplain, hblank, hc⟩ := hkey.exists_cons
    refine ⟨c, more ++ (' ' :: '=' :: ' ' :: value), by rw [hcons]; rfl, hplain, hblank, ?_⟩
    rintro rfl
    exact hc (List.mem_cons_self ..)
  · rw [List.append_assoc]
    exact readStatement_keyLine hkey hvalue (hread rest)

/-- The line of a setting is there if the setting is made. -/
theorem readsAs_optionalLine {α : Type} (h : ReadsAs rest others) (key : String)
    (hkey : IsBareKey key.toList) {spell : α → Text} {toValue : α → Toml.Value}
    (hvalue : ∀ a, ∃ c more, spell a = c :: more ∧ isBlank c = false)
    (hread : ∀ a rest, readValue (depthLimit - 1) (spell a ++ '\n' :: rest) =
      some (toValue a, '\n' :: rest)) (setting : Option α) :
    ReadsAs (optionalLine key spell setting ++ rest)
      ((setting.toList.map fun a => assignment key (toValue a)) ++ others) := by
  cases setting with
  | none => exact h
  | some a => exact readsAs_keyLine h key hkey (hvalue a) (hread a)

theorem readsAs_listLines (h : ReadsAs rest others) (key : String)
    (hkey : IsBareKey key.toList) (texts : List Text) :
    ReadsAs (listLines key texts ++ rest)
      ((if texts.isEmpty then [] else [assignment key (textsValue texts)]) ++
        others) := by
  unfold listLines
  split
  · exact h
  · refine readsAs_keyLine h key hkey ?_ fun rest => readValue_spellStrings _ texts _
    match texts with
    | [] => exact ⟨'[', _, rfl, by decide⟩
    | [text] => exact ⟨'[', _, rfl, by decide⟩
    | first :: second :: texts => exact ⟨'[', _, rfl, by decide⟩

theorem readsAs_header (h : ReadsAs rest others) (name : String)
    (hname : IsBareKey name.toList) :
    ReadsAs (header name ++ rest) (.table [] name.toList :: others) := by
  have hheader : header name ++ rest =
      '\n' :: (('[' :: (name.toList ++ [']'])) ++ '\n' :: rest) := by
    simp [header]
  rw [hheader]
  refine (h.line ⟨'[', _, rfl, by decide, by decide, by decide⟩ ?_).break
  simpa using readStatement_header hname

/-- The statements that a configuration is written as. -/
def statements (config : Config) : List Statement :=
  [assignment "version" (.integer 1), .table [] "linter".toList] ++
    ((config.enableWarnings.toList.map fun b => assignment "enable_warnings" (.boolean b)) ++
    ((config.catalog.toList.map fun path => assignment "catalog" (.string path.toList)) ++
    ([.table [] "whitelist".toList] ++
    ((if config.classes.isEmpty then []
      else [assignment "classes" (textsValue config.classes)]) ++
    ((if config.bases.isEmpty then []
      else [assignment "bases" (textsValue config.bases)]) ++
    ([.table [] "output".toList] ++
    (config.color.toList.map fun b => assignment "color" (.boolean b))))))))

theorem spellTruth_head (b : Bool) : ∃ c more, spellTruth b = c :: more ∧ isBlank c = false := by
  cases b with
  | true => exact ⟨'t', _, rfl, by decide⟩
  | false => exact ⟨'f', _, rfl, by decide⟩

/-- A configuration is read as its statements. -/
theorem readsAs_toToml (config : Config) : ReadsAs config.toToml config.statements := by
  have hstring : ∀ path : String, ∃ c more, spellString path.toList = c :: more ∧
      isBlank c = false := by
    intro path
    obtain ⟨c, more, hspell, hc⟩ := spellString_head path.toList
    refine ⟨c, more, hspell, ?_⟩
    rcases hc with rfl | rfl
    · decide
    · decide
  have htruth : ∀ (b : Bool) (rest : Text), readValue (depthLimit - 1)
      (spellTruth b ++ '\n' :: rest) = some (.boolean b, '\n' :: rest) :=
    fun b rest => readValue_spellTruth _ b _
  have hpath : ∀ (path : String) (rest : Text), readValue (depthLimit - 1)
      (spellString path.toList ++ '\n' :: rest) = some (.string path.toList, '\n' :: rest) :=
    fun path rest => readValue_spellString _ _ (by simp) (by simp)
  -- From the last line to the first.
  have hcolor := readsAs_optionalLine readsAs_nil "color" (by decide) spellTruth_head htruth
    config.color
  have houtput := readsAs_header hcolor "output" (by decide)
  have hbases := readsAs_listLines houtput "bases" (by decide) config.bases
  have hclasses := readsAs_listLines hbases "classes" (by decide) config.classes
  have hwhitelist := readsAs_header hclasses "whitelist" (by decide)
  have hcatalog := readsAs_optionalLine hwhitelist "catalog" (by decide) hstring hpath
    config.catalog
  have hwarnings := readsAs_optionalLine hcatalog "enable_warnings" (by decide) spellTruth_head
    htruth config.enableWarnings
  have hlinter := readsAs_header hwarnings "linter" (by decide)
  have hdigit : ∃ c more, Nat.toDigits 10 version = c :: more ∧ isBlank c = false :=
    ⟨'1', [], by decide, by decide⟩
  have hversion := readsAs_keyLine hlinter "version" (by decide) hdigit (readValue_version _)
  rw [List.append_nil] at hversion
  simpa only [toToml, statements, List.append_assoc, List.cons_append, List.nil_append,
    List.append_nil] using hversion

/-! ## The members of a configuration -/

/-- The members of the table for the linter. -/
def linterMembers (config : Config) : List (Text × Toml.Value) :=
  (config.enableWarnings.toList.map fun b => ("enable_warnings".toList, .boolean b)) ++
    (config.catalog.toList.map fun path => ("catalog".toList, .string path.toList))

/-- The members of the table for names. -/
def whitelistMembers (config : Config) : List (Text × Toml.Value) :=
  (if config.classes.isEmpty then [] else [("classes".toList, textsValue config.classes)]) ++
    (if config.bases.isEmpty then [] else [("bases".toList, textsValue config.bases)])

/-- The members of the table for the output. -/
def outputMembers (config : Config) : List (Text × Toml.Value) :=
  config.color.toList.map fun b => ("color".toList, .boolean b)

/-- The members that the statements of a configuration define. -/
def members (config : Config) : List (Text × Toml.Value) :=
  [("version".toList, .integer 1), ("linter".toList, .table config.linterMembers),
    ("whitelist".toList, .table config.whitelistMembers),
    ("output".toList, .table config.outputMembers)]

/-- Carrying out the statements defines the members, whichever of them there are. -/
theorem foldlM_statements (config : Config) :
    (config.statements.foldlM Progress.step {}).map (fun progress => progress.root.members) =
      some config.members := by
  -- The settings that are made decide which statements there are, whatever their values.
  rcases config with ⟨_ | _, _ | _, _ | ⟨_, _⟩, _ | ⟨_, _⟩, _ | _⟩ <;> rfl

theorem truth?_enableWarnings (config : Config) :
    truth? (member? "enable_warnings" config.linterMembers) = some config.enableWarnings := by
  rcases config with ⟨_ | _, _ | _, _, _, _⟩ <;> rfl

theorem string?_catalog (config : Config) :
    string? (member? "catalog" config.linterMembers) = some config.catalog := by
  have hpath (path : String) : string? (some (.string path.toList)) = some (some path) := by
    rw [string?, String.ofList_toList]
  rcases config with ⟨_ | _, _ | path, _, _, _⟩
  · rfl
  · exact hpath path
  · rfl
  · exact hpath path

theorem strings?_textsValue (texts : List Text) :
    strings? (some (textsValue texts)) = some texts := by
  have htexts : (texts.map Value.string).mapM text? = some texts := by
    induction texts with
    | nil => rfl
    | cons text texts ih => simp [text?, ih]
  exact htexts

theorem strings?_classes (config : Config) :
    strings? (member? "classes" config.whitelistMembers) = some config.classes := by
  rcases config with ⟨_, _, _ | ⟨name, names⟩, _ | _, _⟩
  · rfl
  · rfl
  · exact strings?_textsValue (name :: names)
  · exact strings?_textsValue (name :: names)

theorem strings?_bases (config : Config) :
    strings? (member? "bases" config.whitelistMembers) = some config.bases := by
  rcases config with ⟨_, _, _ | _, _ | ⟨name, names⟩, _⟩
  · rfl
  · exact strings?_textsValue (name :: names)
  · rfl
  · exact strings?_textsValue (name :: names)

theorem truth?_color (config : Config) :
    truth? (member? "color" config.outputMembers) = some config.color := by
  rcases config with ⟨_, _, _, _, _ | _⟩ <;> rfl

/-- The members of a configuration describe it. -/
theorem ofMembers?_members (config : Config) : ofMembers? config.members = some config := by
  have hlinter : member? "linter" config.members = some (.table config.linterMembers) := rfl
  have hwhitelist : member? "whitelist" config.members =
      some (.table config.whitelistMembers) := rfl
  have houtput : member? "output" config.members = some (.table config.outputMembers) := rfl
  have hversion : isVersion (member? "version" config.members) = true := rfl
  simp only [ofMembers?, hlinter, hwhitelist, houtput, hversion, Section.ofValue?, Section.value?,
    Section.complete, truth?_enableWarnings, string?_catalog, strings?_classes, strings?_bases,
    truth?_color, Option.bind_eq_bind, Option.bind_some, Bool.and_true, if_true]

/-- A configuration is read as it was written. -/
theorem ofToml?_toToml (config : Config) : ofToml? config.toToml = some config := by
  have hstatements : readStatements config.toToml = some config.statements :=
    (readsAs_toToml config).read (by simp [toToml, keyLine])
  have hmembers := foldlM_statements config
  rw [Option.map_eq_some_iff] at hmembers
  obtain ⟨progress, hprogress, hmembers⟩ := hmembers
  simp only [ofToml?, Toml.read, hstatements, Option.bind_eq_bind, Option.bind_some, hprogress,
    hmembers, ofMembers?_members]

/-- The document to start from makes no settings. -/
theorem ofToml?_template : ofToml? template = some {} := by decide +kernel

end Config

end ItemFilter
