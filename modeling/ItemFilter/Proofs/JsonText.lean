import ItemFilter.Json
import ItemFilter.Json.Reader
import ItemFilter.Proofs.HexPairs

/-!
# JSON that is read back

A value that is printed can be read again, so that what is told in JSON is there for others to read.
The reader knows of no line ends or indentation: it passes over the white space in front of every
part, and takes a part off the front of a text, whatever follows it. Only a number has to be
followed by something else than a digit.

## Main definitions

* `Json.readValue`: reads a value, nested no deeper than a number
* `Json.read?`: the value that a text consists of
* `Json.ReadsAs`: a text that is read as an entry

## Main results

* `Json.readString_quote`: a string is read as it was quoted
* `Json.readEntries_eq`: entries with commas between them are read one by one
* `Json.readsAs_renderAt`: a value is read as it was printed, at every level
* `Json.read?_render`: a printed value is read back
-/

namespace ItemFilter.Json

open Cursor (decimal)

/-! ## Reading values -/

/-- Reads a decimal numeral. Only that of zero starts with a zero. -/
def readNatural (text : Text) : Option (Nat × Text) :=
  let digits := text.takeWhile Char.isDigit
  if digits = [] ∨ (digits.head? = some '0' ∧ digits ≠ ['0']) then none
  else some (decimal digits, text.dropWhile Char.isDigit)

/-- Reads a number without a fraction. -/
def readNumber : Text → Option (Int × Text)
  | '-' :: text => (readNatural text).map fun (n, rest) => (-n, rest)
  | text => (readNatural text).map fun (n, rest) => (n, rest)

section

variable {α : Type}

/-- Reads entries with commas between them, up to the closing character. -/
def readEntries (read : Text → Option (α × Text)) (closing : Char) :
    Nat → Text → Option (List α × Text)
  | 0, _ => none
  | fuel + 1, text => do
    let (entry, text) ← read text
    match skipSpace text with
    | [] => none
    | c :: rest =>
      if c = closing then some ([entry], rest)
      else if c = ',' then
        (readEntries read closing fuel rest).map fun (entries, rest) => (entry :: entries, rest)
      else none

/-- Reads what is closed by a character: nothing, or entries with commas between them. -/
def readClosed (read : Text → Option (α × Text)) (closing : Char) (text : Text) :
    Option (List α × Text) :=
  match skipSpace text with
  | [] => none
  | c :: rest =>
    if c = closing then some ([], rest) else readEntries read closing text.length text

end

/-- Reads a member of an object, its value by the given reader. -/
def readMember (read : Text → Option (Json × Text)) (text : Text) :
    Option ((String × Json) × Text) := do
  let (name, text) ← readString (skipSpace text)
  match skipSpace text with
  | ':' :: text =>
    let (value, rest) ← read text
    some ((String.ofList name, value), rest)
  | _ => none

/-- Reads a value, nested no deeper than a number. -/
def readValue : Nat → Text → Option (Json × Text)
  | 0, _ => none
  | depth + 1, text =>
    match skipSpace text with
    | [] => none
    | c :: rest =>
      if c = '"' then (readString (c :: rest)).map fun (s, rest) => (ofText s, rest)
      else if c = '[' then
        (readClosed (readValue depth) ']' rest).map fun (items, rest) => (array items, rest)
      else if c = '\x7b' then
        (readClosed (readMember (readValue depth)) '\x7d' rest).map fun (members, rest) =>
          (object members, rest)
      else if c = 't' then (skipWord ['r', 'u', 'e'] rest).map fun rest => (boolean true, rest)
      else if c = 'f' then
        (skipWord ['a', 'l', 's', 'e'] rest).map fun rest => (boolean false, rest)
      else (readNumber (c :: rest)).map fun (n, rest) => (number n, rest)

/-- The value that a text consists of. Every level of nesting takes a character, so that the length
of the text bounds them. -/
def read? (text : Text) : Option Json :=
  match readValue text.length text with
  | some (value, rest) => if skipSpace rest = [] then some value else none
  | none => none

variable {c : Char} {text rest more : Text}

/-! ## White space -/

theorem skipSpace_cons (h : isSpace c = false) (text : Text) :
    skipSpace (c :: text) = c :: text := by
  rw [skipSpace, List.dropWhile_cons_of_neg (by simp [h])]

theorem skipSpace_append {gap : Text} (h : ∀ c ∈ gap, isSpace c = true) (text : Text) :
    skipSpace (gap ++ text) = skipSpace text :=
  List.dropWhile_append_of_pos h

theorem isSpace_of_mem_newline (level : Nat) : ∀ c ∈ (newline level).toList, isSpace c = true := by
  have hpushn (n : Nat) : ∀ c ∈ ("".pushn ' ' n).toList, isSpace c = true := by
    rw [String.pushn_eq_repeat_push]
    induction n with
    | zero => nofun
    | succ n ih =>
      intro c hc
      rw [Nat.repeat, String.toList_push, List.mem_append, List.mem_singleton] at hc
      rcases hc with hc | rfl
      · exact ih c hc
      · rfl
  intro c hc
  rw [newline, String.toList_append, List.mem_append] at hc
  rcases hc with hc | hc
  · obtain rfl := List.mem_singleton.mp hc
    rfl
  · exact hpushn _ c hc

theorem isDigit_of_isSpace (h : isSpace c = true) : c.isDigit = false := by
  simp only [isSpace, Bool.or_eq_true, beq_iff_eq] at h
  rcases h with ((rfl | rfl) | rfl) | rfl <;> rfl

/-! ## Strings -/

/-- Control characters are escaped by their numbers. -/
theorem hexUnit?_escape {n : Nat} (h : n < 0x20) (text : Text) :
    hexUnit? ('0' :: '0' :: hexDigit (n / 16) :: hexDigit (n % 16) :: text) = some (n, text) := by
  have hdigits : ∀ n < 0x20,
      ['0', '0', hexDigit (n / 16), hexDigit (n % 16)].all Cursor.isHexDigit = true ∧
      ['0', '0', hexDigit (n / 16), hexDigit (n % 16)].foldl
        (fun n c => 16 * n + hexUnit?.hexValue c) 0 = n := by decide
  rw [hexUnit?, if_pos (hdigits n h).1, (hdigits n h).2]

theorem unicodeEscape?_control {n : Nat} (h : n < 0x20) (text : Text) :
    unicodeEscape? ('0' :: '0' :: hexDigit (n / 16) :: hexDigit (n % 16) :: text) =
      some (Char.ofNat n, text) := by
  have hlow : (decide (0xDC00 ≤ n) && decide (n ≤ 0xDFFF)) = false := by simp; omega
  have hhigh : (decide (0xD800 ≤ n) && decide (n ≤ 0xDBFF)) = false := by simp; omega
  rw [unicodeEscape?, hexUnit?_escape h]
  simp only [Option.bind_eq_bind, Option.bind_some, hlow, hhigh, Bool.false_eq_true, if_false]

/-- A character behind a backslash is read as the character that it stands for. -/
theorem stringBody?_simpleEscape (fuel : Nat) {e d : Char} (h : simpleEscape? e = some d)
    (text : Text) :
    stringBody? (fuel + 1) ('\\' :: e :: text) =
      (stringBody? fuel text).map fun (body, rest) => (d :: body, rest) := by
  have he : e = 'u' → False := by
    rintro rfl
    cases h
  rw [stringBody?.eq_5 fuel '\\' e text he, if_neg (by decide), if_neg (by decide), if_pos rfl, h]
  cases stringBody? fuel text <;> rfl

/-- A control character is read by its number. -/
theorem stringBody?_unicodeEscape (fuel : Nat) {n : Nat} (h : n < 0x20) (text : Text) :
    stringBody? (fuel + 1)
        ('\\' :: 'u' :: '0' :: '0' :: hexDigit (n / 16) :: hexDigit (n % 16) :: text) =
      (stringBody? fuel text).map fun (body, rest) => (Char.ofNat n :: body, rest) := by
  rw [stringBody?.eq_4, if_neg (by decide), if_neg (by decide), if_pos rfl,
    unicodeEscape?_control h, Option.bind_eq_bind, Option.bind_some]
  dsimp only
  cases stringBody? fuel text <;> rfl

/-- An escaped character is read as the character. -/
theorem stringBody?_escape (fuel : Nat) (c : Char) (text : Text) :
    stringBody? (fuel + 1) (escape c ++ text) =
      (stringBody? fuel text).map fun (body, rest) => (c :: body, rest) := by
  have hchar {n : Nat} (h : c.toNat = n) : c = Char.ofNat n := by rw [← h, Char.ofNat_toNat]
  unfold escape
  split_ifs with hquote hslash hlf hcr htab hb hf hcontrol
  · subst hquote
    exact stringBody?_simpleEscape fuel rfl text
  · subst hslash
    exact stringBody?_simpleEscape fuel rfl text
  · subst hlf
    exact stringBody?_simpleEscape fuel rfl text
  · subst hcr
    exact stringBody?_simpleEscape fuel rfl text
  · subst htab
    exact stringBody?_simpleEscape fuel rfl text
  · rw [hchar hb]
    exact stringBody?_simpleEscape fuel rfl text
  · rw [hchar hf]
    exact stringBody?_simpleEscape fuel rfl text
  · have hread := stringBody?_unicodeEscape fuel hcontrol text
    rwa [Char.ofNat_toNat] at hread
  · rw [List.singleton_append, stringBody?.eq_def]
    dsimp only
    rw [if_neg hquote, if_neg hcontrol, if_neg hslash]

/-- A string is read up to the quote behind it. -/
theorem stringBody?_flatMap_escape (s rest : Text) {fuel : Nat} (h : s.length < fuel) :
    stringBody? fuel (s.flatMap escape ++ '"' :: rest) = some (s, rest) := by
  induction s generalizing fuel with
  | nil =>
    obtain ⟨fuel, rfl⟩ := Nat.exists_eq_add_one_of_ne_zero (Nat.ne_of_gt h)
    rw [List.flatMap_nil, List.nil_append, stringBody?.eq_def]
    exact if_pos rfl
  | cons c s ih =>
    obtain ⟨fuel, rfl⟩ := Nat.exists_eq_add_one_of_ne_zero (Nat.ne_of_gt (Nat.zero_lt_of_lt h))
    rw [List.flatMap_cons, List.append_assoc, stringBody?_escape,
      ih (Nat.lt_of_succ_lt_succ h)]
    rfl

theorem toList_quote (s : String) :
    (quote s).toList = '"' :: (s.toList.flatMap escape ++ ['"']) := by
  simp [quote]

theorem length_le_flatMap_escape (s : Text) : s.length ≤ (s.flatMap escape).length := by
  induction s with
  | nil => exact Nat.le_refl 0
  | cons c s ih =>
    have hescape : 1 ≤ (escape c).length := by
      unfold escape
      split_ifs <;> simp
    rw [List.flatMap_cons, List.length_cons, List.length_append]
    omega

/-- A string is read as it was quoted. -/
theorem readString_quote (s : String) (rest : Text) :
    readString ((quote s).toList ++ rest) = some (s.toList, rest) := by
  have hlength := length_le_flatMap_escape s.toList
  rw [toList_quote, List.cons_append, List.append_assoc]
  apply stringBody?_flatMap_escape
  rw [List.length_append]
  omega

/-! ## Numbers -/

/-- A numeral is read up to what is no digit. -/
theorem readNatural_toDigits (n : Nat) (h : ∀ c ∈ rest.head?, c.isDigit = false) :
    readNatural (Nat.toDigits 10 n ++ rest) = some (n, rest) := by
  have hcanonical := Text.isCanonical_toDigits n
  have htake : (Nat.toDigits 10 n ++ rest).takeWhile Char.isDigit = Nat.toDigits 10 n := by
    rw [List.takeWhile_append_of_pos hcanonical.isDigit]
    cases rest with
    | nil => rw [List.takeWhile_nil, List.append_nil]
    | cons c rest => rw [List.takeWhile_cons_of_neg (by simp [h c rfl]), List.append_nil]
  have hdrop : (Nat.toDigits 10 n ++ rest).dropWhile Char.isDigit = rest := by
    have hwhole : _ ++ (Nat.toDigits 10 n ++ rest).dropWhile Char.isDigit = _ :=
      List.takeWhile_append_dropWhile
    rw [htake] at hwhole
    exact List.append_cancel_left hwhole
  have hread : ¬ (Nat.toDigits 10 n = [] ∨
      ((Nat.toDigits 10 n).head? = some '0' ∧ Nat.toDigits 10 n ≠ ['0'])) := by
    rintro (hnil | ⟨hhead, hne⟩)
    · exact hcanonical.ne_nil hnil
    · exact hne (hcanonical.head_zero hhead)
  rw [readNatural, htake, hdrop, if_neg hread, Text.decimal_toDigits]

theorem toList_toString_ofNat (n : Nat) : (toString (Int.ofNat n)).toList = Nat.toDigits 10 n :=
  Nat.toList_repr

theorem toList_toString_negSucc (n : Nat) :
    (toString (Int.negSucc n)).toList = '-' :: Nat.toDigits 10 (n + 1) := by
  have hsign : toString (Int.negSucc n) = "-" ++ (n + 1).repr := rfl
  rw [hsign, String.toList_append, Nat.toList_repr]
  rfl

/-- A number starts with a digit or a minus sign. -/
theorem exists_toString_cons (n : Int) :
    ∃ c more, (toString n).toList = c :: more ∧ (c = '-' ∨ c.isDigit = true) := by
  cases n with
  | ofNat n =>
    have hcanonical := Text.isCanonical_toDigits n
    obtain ⟨c, more, hdigits⟩ := List.exists_cons_of_ne_nil hcanonical.ne_nil
    refine ⟨c, more, (toList_toString_ofNat n).trans hdigits, Or.inr (hcanonical.isDigit c ?_)⟩
    rw [hdigits]
    exact List.mem_cons_self
  | negSucc n => exact ⟨'-', _, toList_toString_negSucc n, Or.inl rfl⟩

/-- What a number starts with is unlike anything that another value starts with. -/
theorem ne_of_number {d : Char} (h : c = '-' ∨ c.isDigit = true)
    (hd : d ≠ '-' ∧ d.isDigit = false) : c ≠ d := by
  rintro rfl
  rcases h with rfl | h
  · exact hd.1 rfl
  · rw [hd.2] at h
    cases h

theorem isSpace_of_number (h : c = '-' ∨ c.isDigit = true) : isSpace c = false := by
  rcases h with rfl | h
  · rfl
  · by_contra hspace
    rw [Bool.not_eq_false] at hspace
    rw [isDigit_of_isSpace hspace] at h
    cases h

/-- A number is read up to what is no digit. -/
theorem readNumber_toString (n : Int) (h : ∀ c ∈ rest.head?, c.isDigit = false) :
    readNumber ((toString n).toList ++ rest) = some (n, rest) := by
  cases n with
  | ofNat n =>
    have hread := readNatural_toDigits n h
    have hcanonical := Text.isCanonical_toDigits n
    rw [toList_toString_ofNat]
    unfold readNumber
    split
    · next text htext =>
      -- A numeral does not start with a minus sign.
      obtain ⟨c, more, hdigits⟩ := List.exists_cons_of_ne_nil hcanonical.ne_nil
      rw [hdigits, List.cons_append] at htext
      have hdigit := hcanonical.isDigit c (by rw [hdigits]; exact List.mem_cons_self)
      rw [(List.cons.inj htext).1] at hdigit
      cases hdigit
    · rw [hread]
      rfl
  | negSucc n =>
    rw [toList_toString_negSucc, List.cons_append, readNumber, readNatural_toDigits (n + 1) h]
    rfl

/-! ## Entries -/

section

variable {α : Type} {read : Text → Option (α × Text)} {closing : Char}

/-- A text that is read as an entry: with white space in front of it, and in front of anything but a
digit. -/
structure ReadsAs (read : Text → Option (α × Text)) (written : Text) (entry : α) : Prop where
  /-- It starts with a character that is no white space, and closes nothing. -/
  exists_cons : ∃ c more, written = c :: more ∧ isSpace c = false ∧ c ∉ [']', '\x7d']
  /-- The entry is read, and the text behind it left. -/
  read_eq {text rest : Text} (htext : skipSpace text = written ++ rest)
    (hrest : ∀ c ∈ rest.head?, c.isDigit = false) : read text = some (entry, rest)

theorem ReadsAs.skipSpace_eq {written : Text} {entry : α} (h : ReadsAs read written entry)
    (text : Text) : skipSpace (written ++ text) = written ++ text := by
  obtain ⟨c, more, rfl, hc, -⟩ := h.exists_cons
  exact skipSpace_cons hc _

variable {write : α → Text} {gap last : Text}

/-- Entries as they are written behind the first one. -/
def following (write : α → Text) (gap : Text) (entries : List α) : Text :=
  entries.flatMap fun entry => ',' :: (gap ++ write entry)

theorem length_le_following (write : α → Text) (gap : Text) (entries : List α) :
    entries.length ≤ (following write gap entries).length := by
  induction entries with
  | nil => exact Nat.le_refl 0
  | cons entry entries ih =>
    rw [following, List.flatMap_cons, List.length_append, List.length_cons, List.length_cons,
      ← following]
    omega

/-- Each of the entries is part of what is written. -/
theorem length_le_of_mem (write : α → Text) (gap : Text) {first entry : α} {entries : List α}
    (h : entry ∈ first :: entries) :
    (write entry).length ≤ (write first).length + (following write gap entries).length := by
  rcases List.mem_cons.mp h with rfl | h
  · exact Nat.le_add_right ..
  · obtain ⟨front, back, rfl⟩ := List.append_of_mem h
    simp only [following, List.flatMap_append, List.flatMap_cons, List.length_append,
      List.length_cons]
    omega

theorem following_nil (write : α → Text) (gap : Text) : following write gap [] = [] := rfl

theorem following_cons (write : α → Text) (gap : Text) (entry : α) (entries : List α) :
    following write gap (entry :: entries) =
      ',' :: (gap ++ (write entry ++ following write gap entries)) := by
  rw [following, List.flatMap_cons, List.cons_append, List.append_assoc, ← following]

/-- What closes entries is no white space, no digit and no comma. -/
theorem closing_apart (h : closing ∈ [']', '\x7d']) :
    isSpace closing = false ∧ closing.isDigit = false ∧ ',' ≠ closing := by
  rcases List.mem_cons.mp h with rfl | h
  · decide
  · obtain rfl := List.mem_singleton.mp h
    decide

variable (hgap : ∀ c ∈ gap, isSpace c = true) (hlast : ∀ c ∈ last, isSpace c = true)
  (hclosing : closing ∈ [']', '\x7d'])
include hlast hclosing

theorem isDigit_of_closing : ∀ c ∈ (last ++ closing :: rest).head?, c.isDigit = false := by
  intro c hc
  cases last with
  | nil =>
    obtain rfl := Option.some.inj hc
    exact (closing_apart hclosing).2.1
  | cons d last =>
    obtain rfl := Option.some.inj hc
    exact isDigit_of_isSpace (hlast d List.mem_cons_self)

include hgap

/-- Entries with commas between them are read one by one, up to what closes them. -/
theorem readEntries_eq {first : α} {entries : List α}
    (hread : ∀ entry ∈ first :: entries, ReadsAs read (write entry) entry)
    {fuel : Nat} (hfuel : entries.length < fuel) (htext : skipSpace text =
      write first ++ (following write gap entries ++ (last ++ closing :: rest))) :
    readEntries read closing fuel text = some (first :: entries, rest) := by
  obtain ⟨hspace, hdigit, hcomma⟩ := closing_apart hclosing
  -- Induction on the entries behind the first one, from comma to comma.
  induction entries generalizing first text fuel with
  | nil =>
    obtain ⟨fuel, rfl⟩ := Nat.exists_eq_add_one_of_ne_zero (Nat.ne_of_gt hfuel)
    have hfirst := (hread first List.mem_cons_self).read_eq htext
      (isDigit_of_closing hlast hclosing)
    rw [readEntries, hfirst, Option.bind_eq_bind, Option.bind_some]
    dsimp only
    rw [following_nil, List.nil_append, skipSpace_append hlast, skipSpace_cons hspace]
    exact if_pos rfl
  | cons next entries ih =>
    obtain ⟨fuel, rfl⟩ := Nat.exists_eq_add_one_of_ne_zero
      (Nat.ne_of_gt (Nat.zero_lt_of_lt hfuel))
    rw [List.forall_mem_cons] at hread
    have hnext := (List.forall_mem_cons.mp hread.2).1
    rw [following_cons] at htext
    have hfirst := hread.1.read_eq htext (by rintro c ⟨⟩; rfl)
    have hmore := ih hread.2 (Nat.lt_of_succ_lt_succ hfuel)
      ((skipSpace_append hgap _).trans (hnext.skipSpace_eq _))
    rw [readEntries, hfirst, Option.bind_eq_bind, Option.bind_some]
    dsimp only
    rw [List.cons_append, skipSpace_cons rfl]
    dsimp only
    rw [if_neg hcomma, if_pos rfl, List.append_assoc, List.append_assoc, hmore]
    rfl

/-- What is closed is read if there is an entry in it. -/
theorem readClosed_eq {first : α} {entries : List α}
    (hread : ∀ entry ∈ first :: entries, ReadsAs read (write entry) entry) :
    readClosed read closing
        (gap ++ (write first ++ (following write gap entries ++ (last ++ closing :: rest)))) =
      some (first :: entries, rest) := by
  have hfirst := hread first List.mem_cons_self
  have htext := (skipSpace_append hgap
    (write first ++ (following write gap entries ++ (last ++ closing :: rest)))).trans
      (hfirst.skipSpace_eq _)
  obtain ⟨c, more, hwrite, -, hc⟩ := hfirst.exists_cons
  unfold readClosed
  split
  · next hnil =>
    rw [htext, hwrite] at hnil
    cases hnil
  · next d behind hcons =>
    rw [htext, hwrite, List.cons_append] at hcons
    have hne : d ≠ closing := by
      rw [← (List.cons.inj hcons).1]
      rintro rfl
      exact hc hclosing
    rw [if_neg hne]
    refine readEntries_eq hgap hlast hclosing hread ?_ htext
    have hfollowing := length_le_following write gap entries
    simp only [List.length_append, List.length_cons]
    omega

end

/-- A member of an object as it is written. -/
def memberText (level : Nat) (member : String × Json) : Text :=
  (quote member.1).toList ++ ':' :: ' ' :: (renderAt level member.2).toList

/-- A member is read as its name and its value. -/
theorem ReadsAs.member {read : Text → Option (Json × Text)} {level : Nat} {member : String × Json}
    (h : ReadsAs read (renderAt level member.2).toList member.2) :
    ReadsAs (readMember read) (memberText level member) member where
  exists_cons := by
    rw [memberText, toList_quote]
    exact ⟨'"', _, rfl, rfl, by decide⟩
  read_eq {text rest} htext hrest := by
    rw [memberText, List.append_assoc] at htext
    have hspace : ∀ c ∈ [' '], isSpace c = true := List.forall_mem_singleton.mpr rfl
    have hvalue := h.read_eq ((skipSpace_append hspace _).trans (h.skipSpace_eq rest)) hrest
    have hcolon : skipSpace (':' :: ' ' :: (renderAt level member.2).toList ++ rest) =
        ':' :: ([' '] ++ ((renderAt level member.2).toList ++ rest)) := skipSpace_cons rfl _
    rw [readMember, htext, readString_quote, Option.bind_eq_bind, Option.bind_some]
    dsimp only
    rw [hcolon]
    simp only [hvalue, Option.bind_eq_bind, Option.bind_some, String.ofList_toList]

/-! ## Values -/

theorem toList_renderItems (level : Nat) (items : List Json) :
    (renderItems level items).toList =
      following (fun item => (renderAt level item).toList) (newline level).toList items := by
  induction items with
  | nil => rfl
  | cons item items ih =>
    rw [renderItems, following_cons, ← ih]
    simp only [String.toList_append, List.append_assoc]
    rfl

theorem toList_renderMembers (level : Nat) (members : List (String × Json)) :
    (renderMembers level members).toList =
      following (memberText level) (newline level).toList members := by
  induction members with
  | nil => rfl
  | cons member members ih =>
    rw [renderMembers, following_cons, ← ih, memberText]
    simp only [String.toList_append, List.append_assoc]
    rfl

/-- The characters of an array with items. -/
theorem toList_renderAt_array (level : Nat) (first : Json) (items : List Json) :
    (renderAt level (array (first :: items))).toList =
      '[' :: ((newline (level + 1)).toList ++ ((renderAt (level + 1) first).toList ++
        (following (fun item => (renderAt (level + 1) item).toList) (newline (level + 1)).toList
          items ++ ((newline level).toList ++ [']'])))) := by
  rw [renderAt, ← toList_renderItems]
  simp only [String.toList_append, List.append_assoc]
  rfl

/-- The characters of an object with members. -/
theorem toList_renderAt_object (level : Nat) (first : String × Json)
    (members : List (String × Json)) :
    (renderAt level (object (first :: members))).toList =
      '\x7b' :: ((newline (level + 1)).toList ++ (memberText (level + 1) first ++
        (following (memberText (level + 1)) (newline (level + 1)).toList members ++
          ((newline level).toList ++ ['\x7d'])))) := by
  rw [renderAt, ← toList_renderMembers, memberText]
  simp only [String.toList_append, List.append_assoc]
  rfl

/-- A printed value starts with a character that is no white space, and closes nothing. -/
theorem exists_renderAt_cons (level : Nat) (value : Json) :
    ∃ c more, (renderAt level value).toList = c :: more ∧ isSpace c = false ∧
      c ∉ [']', '\x7d'] := by
  cases value with
  | boolean b =>
    cases b with
    | true => exact ⟨'t', _, by rw [renderAt]; rfl, rfl, by decide⟩
    | false => exact ⟨'f', _, by rw [renderAt]; rfl, rfl, by decide⟩
  | number n =>
    obtain ⟨c, more, hn, hc⟩ := exists_toString_cons n
    refine ⟨c, more, by rw [renderAt, hn], isSpace_of_number hc, ?_⟩
    rw [List.mem_cons, List.mem_singleton, not_or]
    exact ⟨ne_of_number hc (by decide), ne_of_number hc (by decide)⟩
  | string s => exact ⟨'"', _, by rw [renderAt, toList_quote], rfl, by decide⟩
  | array items =>
    cases items with
    | nil => exact ⟨'[', _, by rw [renderAt]; rfl, rfl, by decide⟩
    | cons first items => exact ⟨'[', _, toList_renderAt_array .., rfl, by decide⟩
  | object members =>
    cases members with
    | nil => exact ⟨'\x7b', _, by rw [renderAt]; rfl, rfl, by decide⟩
    | cons first members => exact ⟨'\x7b', _, toList_renderAt_object .., rfl, by decide⟩

section

variable {depth level : Nat}

theorem readValue_string {s : String}
    (htext : skipSpace text = (renderAt level (string s)).toList ++ rest) :
    readValue (depth + 1) text = some (string s, rest) := by
  have hread := readString_quote s rest
  rw [toList_quote, List.cons_append] at hread
  rw [renderAt, toList_quote, List.cons_append] at htext
  rw [readValue, htext]
  dsimp only
  rw [if_pos rfl, hread, Option.map_some, ofText, String.ofList_toList]

theorem readValue_number {n : Int}
    (htext : skipSpace text = (renderAt level (number n)).toList ++ rest)
    (hrest : ∀ c ∈ rest.head?, c.isDigit = false) :
    readValue (depth + 1) text = some (number n, rest) := by
  have hread := readNumber_toString n hrest
  obtain ⟨c, more, hn, hc⟩ := exists_toString_cons n
  rw [hn, List.cons_append] at hread
  rw [renderAt, hn, List.cons_append] at htext
  rw [readValue, htext]
  dsimp only
  rw [if_neg (ne_of_number hc (by decide)), if_neg (ne_of_number hc (by decide)),
    if_neg (ne_of_number hc (by decide)), if_neg (ne_of_number hc (by decide)),
    if_neg (ne_of_number hc (by decide)), hread]
  rfl

theorem readValue_array {first : Json} {items : List Json}
    (hread : ∀ item ∈ first :: items,
      ReadsAs (readValue depth) (renderAt (level + 1) item).toList item)
    (htext : skipSpace text = (renderAt level (array (first :: items))).toList ++ rest) :
    readValue (depth + 1) text = some (array (first :: items), rest) := by
  have hclosing : ']' ∈ [']', '\x7d'] := by decide
  rw [toList_renderAt_array, List.cons_append] at htext
  rw [readValue, htext]
  dsimp only
  rw [if_neg (by decide), if_pos rfl]
  simp only [List.append_assoc, List.singleton_append]
  rw [readClosed_eq (isSpace_of_mem_newline _) (isSpace_of_mem_newline _) hclosing hread]
  rfl

theorem readValue_object {first : String × Json} {members : List (String × Json)}
    (hread : ∀ member ∈ first :: members,
      ReadsAs (readValue depth) (renderAt (level + 1) member.2).toList member.2)
    (htext : skipSpace text = (renderAt level (object (first :: members))).toList ++ rest) :
    readValue (depth + 1) text = some (object (first :: members), rest) := by
  have hclosing : '\x7d' ∈ [']', '\x7d'] := by decide
  have hmembers : ∀ member ∈ first :: members,
      ReadsAs (readMember (readValue depth)) (memberText (level + 1) member) member :=
    fun member hmember => (hread member hmember).member
  rw [toList_renderAt_object, List.cons_append] at htext
  rw [readValue, htext]
  dsimp only
  rw [if_neg (by decide), if_neg (by decide), if_pos rfl]
  simp only [List.append_assoc, List.singleton_append]
  rw [readClosed_eq (isSpace_of_mem_newline _) (isSpace_of_mem_newline _) hclosing hmembers]
  rfl

end

/-- A value is read as it was printed, at every level. -/
theorem readsAs_renderAt {depth level : Nat} {value : Json}
    (h : (renderAt level value).toList.length ≤ depth) :
    ReadsAs (readValue depth) (renderAt level value).toList value := by
  -- Induction on the depth: what is in an array or an object is shorter than the whole.
  induction depth generalizing level value with
  | zero =>
    obtain ⟨c, more, hvalue, -⟩ := exists_renderAt_cons level value
    rw [hvalue] at h
    cases h
  | succ depth ih =>
    refine ⟨exists_renderAt_cons level value, fun {text rest} htext hrest => ?_⟩
    cases value with
    | boolean b =>
      cases b with
      | true =>
        rw [readValue, htext, renderAt]
        rfl
      | false =>
        rw [readValue, htext, renderAt]
        rfl
    | number n => exact readValue_number htext hrest
    | string s => exact readValue_string htext
    | array items =>
      cases items with
      | nil =>
        rw [readValue, htext, renderAt]
        rfl
      | cons first items =>
        refine readValue_array (fun item hitem => ih ?_) htext
        have hlength := length_le_of_mem (fun item => (renderAt (level + 1) item).toList)
          (newline (level + 1)).toList hitem
        rw [toList_renderAt_array] at h
        simp only [List.length_cons, List.length_append] at h hlength
        omega
    | object members =>
      cases members with
      | nil =>
        rw [readValue, htext, renderAt]
        rfl
      | cons first members =>
        refine readValue_object (fun member hmember => ih ?_) htext
        have hlength := length_le_of_mem (memberText (level + 1)) (newline (level + 1)).toList
          hmember
        rw [toList_renderAt_object] at h
        have hmember : (renderAt (level + 1) member.2).toList.length ≤
            (memberText (level + 1) member).length := by
          simp only [memberText, List.length_append, List.length_cons]
          omega
        simp only [List.length_cons, List.length_append] at h
        omega

/-- A printed value is read back, with white space behind it or without. -/
theorem read?_render (value : Json) {gap : Text} (h : ∀ c ∈ gap, isSpace c = true) :
    read? (value.render.toList ++ gap) = some value := by
  have hlength : value.render.toList.length ≤ (value.render.toList ++ gap).length := by
    rw [List.length_append]
    exact Nat.le_add_right ..
  have hread : ReadsAs _ value.render.toList value := readsAs_renderAt hlength
  have hdigit : ∀ c ∈ gap.head?, c.isDigit = false := fun c hc =>
    isDigit_of_isSpace (h c (List.mem_of_mem_head? hc))
  have hend : skipSpace gap = [] := by
    have hskip := skipSpace_append h []
    rwa [List.append_nil] at hskip
  rw [read?, hread.read_eq (hread.skipSpace_eq gap) hdigit]
  exact if_pos hend

-- Nothing is read that only looks like a value.
example : read? "[0, 1,]".toList = none := by rfl

end ItemFilter.Json
