import ItemFilter.Toml.Quoted
import ItemFilter.Toml.Spelling

/-!
# Strings that are read as they were spelled

Whatever form a string is spelled in, it is read as the string it was. What has to be known of the
text behind it is that it does not go on with a quote: in a string of several lines, up to two
quotes in front of the closing ones belong to the string.

## Main results

* `Toml.basicBody_spellBody`, `Toml.basicLines_spellBody`: strings with escapes
* `Toml.literalLines_append`: strings without escapes
* `Toml.readString_spellString`: strings in the form they are spelled in
-/

namespace ItemFilter.Toml

variable {c quote : Char} {text rest : Text}

/-! ## Characters -/

theorem ne_of_isPlain (h : isPlain c = true) : c ≠ '\n' ∧ c ≠ '\r' := by
  constructor
  all_goals
    rintro rfl
    exact absurd h (by decide)

theorem isPlain_of_not_needsCode (h : needsCode c = false) (hc : c ≠ '\n') : isPlain c = true := by
  simp only [needsCode, Bool.or_eq_false_iff, Bool.and_eq_false_iff, decide_eq_false_iff_not,
    bne_eq_false_iff_eq, beq_eq_false_iff_ne] at h
  simp only [isPlain, Bool.or_eq_true, beq_iff_eq, Bool.and_eq_true, decide_eq_true_eq, bne_iff_ne]
  grind

/-- A control character is written by two hexadecimal digits. -/
theorem codedCharacter?_spelled (h : c.toNat < 0x80) :
    codedCharacter? 4
        ('0' :: '0' :: upperDigit (c.toNat / 16) :: upperDigit (c.toNat % 16) :: rest) =
      some (c, rest) := by
  have hall : ∀ n < 128,
      [upperDigit (n / 16), upperDigit (n % 16)].all Cursor.isHexDigit = true ∧
        ['0', '0', upperDigit (n / 16), upperDigit (n % 16)].foldl
          (fun n c => 16 * n + hexValue c) 0 = n := by decide
  obtain ⟨hdigits, hvalue⟩ := hall _ h
  have hvalid : c.toNat.isValidChar := Or.inl (by omega)
  simp only [codedCharacter?, List.take_succ_cons, List.take_zero, List.drop_succ_cons,
    List.drop_zero]
  rw [hvalue, if_pos hvalid, Char.ofNat_toNat, if_pos]
  have hzero : Cursor.isHexDigit '0' = true := by decide
  exact ⟨rfl, by simpa [hzero] using hdigits⟩

/-- A character other than a double quote stands for itself or is escaped. The letter of an escape
does not look like the end of a line. -/
theorem spellChar_cases (breaks : Bool) (hc : c ≠ '"') :
    (spellChar breaks c = [c] ∧ isPlain c = true ∧ c ≠ '\\') ∨
      (breaks = true ∧ c = '\n' ∧ spellChar breaks c = ['\n']) ∨
      ∃ e escape, spellChar breaks c = '\\' :: e :: escape ∧ isPlain e = true ∧ isBlank e = false ∧
        ∀ rest, readEscape (e :: escape ++ rest) = some (c, rest) := by
  -- Everything but the plain characters and the line feed is escaped.
  by_cases hb : c.toNat = 0x8
  · obtain rfl : c = '\x08' := by rw [← Char.ofNat_toNat c, hb]
    exact Or.inr (Or.inr ⟨'b', [], rfl, by decide, by decide, fun _ => rfl⟩)
  by_cases ht : c = '\t'
  · subst ht
    exact Or.inr (Or.inr ⟨'t', [], rfl, by decide, by decide, fun _ => rfl⟩)
  by_cases hn : c = '\n'
  · subst hn
    cases breaks with
    | true => exact Or.inr (Or.inl ⟨rfl, rfl, rfl⟩)
    | false => exact Or.inr (Or.inr ⟨'n', [], rfl, by decide, by decide, fun _ => rfl⟩)
  by_cases hf : c.toNat = 0xC
  · obtain rfl : c = '\x0c' := by rw [← Char.ofNat_toNat c, hf]
    exact Or.inr (Or.inr ⟨'f', [], rfl, by decide, by decide, fun _ => rfl⟩)
  by_cases hr : c = '\r'
  · subst hr
    exact Or.inr (Or.inr ⟨'r', [], rfl, by decide, by decide, fun _ => rfl⟩)
  by_cases hbackslash : c = '\\'
  · subst hbackslash
    exact Or.inr (Or.inr ⟨'\\', [], rfl, by decide, by decide, fun _ => rfl⟩)
  by_cases hcode : c.toNat < 0x20 || c.toNat = 0x7F
  · refine Or.inr (Or.inr ⟨'u', ['0', '0', upperDigit (c.toNat / 16), upperDigit (c.toNat % 16)],
      ?_, by decide, by decide, fun rest => ?_⟩)
    · simp only [spellChar, hb, ht, hn, hf, hr, hbackslash, hcode, if_false, if_true]
    · refine codedCharacter?_spelled ?_
      simp only [Bool.or_eq_true, decide_eq_true_eq] at hcode
      omega
  · refine Or.inl ⟨?_, ?_, hbackslash⟩
    · simp only [spellChar, hb, ht, hn, hf, hr, hbackslash, hcode, if_false]
      rfl
    · simp only [Bool.or_eq_true, decide_eq_true_eq, not_or] at hcode
      simp only [isPlain, Bool.or_eq_true, beq_iff_eq, Bool.and_eq_true, decide_eq_true_eq,
        bne_iff_ne]
      omega

/-! ## Strings with escapes -/

theorem spellBody_char (breaks : Bool) (run : Nat) (hc : c ≠ '"') (text : Text) :
    spellBody breaks run (c :: text) = spellChar breaks c ++ spellBody breaks 0 text := by
  rw [spellBody, if_neg hc]

theorem basicBody_plain (fuel : Nat) (hc : c ≠ '"') (hbackslash : c ≠ '\\')
    (hplain : isPlain c = true) :
    basicBody (fuel + 1) (c :: text) =
      (basicBody fuel text).map fun (body, rest) => (c :: body, rest) := by
  rw [basicBody, if_neg hc, if_neg hbackslash, if_pos hplain]

theorem basicBody_escape (fuel : Nat) (h : readEscape text = some (c, rest)) :
    basicBody (fuel + 1) ('\\' :: text) =
      (basicBody fuel rest).map fun (body, rest) => (c :: body, rest) := by
  rw [basicBody, if_neg (by decide), if_pos rfl, h, Option.bind_eq_bind, Option.bind_some]
  cases hbody : basicBody fuel rest <;> simp [hbody]

theorem spellBody_escaped_quote {breaks : Bool} {run : Nat} (h : breaks = true → 2 ≤ run)
    (text : Text) :
    spellBody breaks run ('"' :: text) = '\\' :: '"' :: spellBody breaks 0 text := by
  rw [spellBody, if_pos rfl]
  cases breaks with
  | true => exact if_neg (Nat.not_lt.mpr (h rfl))
  | false => exact if_neg (Nat.not_lt_zero run)

/-- Unless a double quote stands as it is, what is spelled starts with something else. -/
theorem spellBody_head (breaks : Bool) (run : Nat) (text : Text)
    (h : c = '"' → breaks = true → 2 ≤ run) :
    ∃ d more, spellBody breaks run (c :: text) = d :: more ∧ d ≠ '"' := by
  by_cases hc : c = '"'
  · subst hc
    exact ⟨'\\', _, spellBody_escaped_quote (h rfl) text, by decide⟩
  · rw [spellBody_char breaks run hc]
    rcases spellChar_cases breaks hc with ⟨hspell, -⟩ | ⟨-, -, hspell⟩ | ⟨e, escape, hspell, -⟩
    · exact ⟨c, _, by rw [hspell]; rfl, hc⟩
    · exact ⟨'\n', _, by rw [hspell]; rfl, by decide⟩
    · exact ⟨'\\', _, by rw [hspell]; rfl, by decide⟩

theorem length_spellChar_pos (breaks : Bool) (hc : c ≠ '"') : 0 < (spellChar breaks c).length := by
  rcases spellChar_cases breaks hc with ⟨hspell, -⟩ | ⟨-, -, hspell⟩ | ⟨e, escape, hspell, -⟩
  · exact hspell ▸ Nat.one_pos
  · exact hspell ▸ Nat.one_pos
  · exact hspell ▸ Nat.succ_pos _

/-- A character is read back, as it is or as an escape. -/
theorem basicBody_spellChar (fuel : Nat) (hc : c ≠ '"') (text : Text) :
    basicBody (fuel + 1) (spellChar false c ++ text) =
      (basicBody fuel text).map fun (body, rest) => (c :: body, rest) := by
  rcases spellChar_cases false hc with ⟨hspell, hplain, hbackslash⟩ | ⟨hbreaks, -⟩ |
    ⟨e, escape, hspell, -, -, hread⟩
  · rw [hspell]
    exact basicBody_plain fuel hc hbackslash hplain
  · cases hbreaks
  · rw [hspell]
    exact basicBody_escape fuel (hread text)

/-- What is spelled between double quotes is read back. -/
theorem basicBody_spellBody (text rest : Text) (run fuel : Nat)
    (h : (spellBody false run text).length < fuel) :
    basicBody fuel (spellBody false run text ++ '"' :: rest) = some (text, rest) := by
  induction text generalizing run fuel with
  | nil =>
    obtain ⟨fuel, rfl⟩ := Nat.exists_eq_add_of_lt h
    rfl
  | cons c text ih =>
    cases fuel with
    | zero => cases h
    | succ fuel =>
      by_cases hc : c = '"'
      · subst hc
        have hspell : spellBody false run ('"' :: text) = '\\' :: '"' :: spellBody false 0 text :=
          spellBody_escaped_quote (fun h => Bool.noConfusion h) text
        rw [hspell, List.length_cons, List.length_cons] at h
        have hread : readEscape ('"' :: (spellBody false 0 text ++ '"' :: rest)) =
            some ('"', spellBody false 0 text ++ '"' :: rest) := rfl
        rw [hspell, List.cons_append, List.cons_append, basicBody_escape _ hread,
          ih 0 _ (by omega)]
        rfl
      · rw [spellBody_char false run hc, List.length_append] at h
        have hpos := length_spellChar_pos false hc
        rw [spellBody_char false run hc, List.append_assoc, basicBody_spellChar fuel hc,
          ih 0 fuel (by omega)]
        rfl

/-! ## Several lines with escapes -/

theorem quotes_append (quote : Char) (n : Nat) (rest : Text) :
    List.replicate n quote ++ List.replicate 3 quote ++ rest =
      quote :: quote :: quote :: (List.replicate n quote ++ rest) := by
  rw [List.replicate_append_replicate, Nat.add_comm, ← List.replicate_append_replicate,
    List.append_assoc]
  rfl

/-- Up to two quotes in front of the closing ones belong to the string. -/
theorem closing_append {n : Nat} (hn : n ≤ 2) (hrest : rest.head? ≠ some quote) :
    closing quote (List.replicate n quote ++ rest) = (List.replicate n quote, rest) := by
  have hhead : ∀ c ∈ rest.head?, c ≠ quote := by
    rintro c hc rfl
    exact hrest hc
  rcases n with _ | _ | _ | n
  · cases rest with
    | nil => rfl
    | cons c rest => simp [closing, hhead c rfl]
  · cases rest with
    | nil => simp [closing]
    | cons c rest => simp [closing, hhead c rfl]
  · simp [closing]
  · omega

theorem basicLines_quotes (fuel n : Nat) (hn : n ≤ 2) (hrest : rest.head? ≠ some '"') :
    basicLines (fuel + 1) (List.replicate n '"' ++ List.replicate 3 '"' ++ rest) =
      some (List.replicate n '"', rest) := by
  rw [quotes_append, basicLines, closing_append hn hrest]

theorem lineBreak?_of_isPlain (h : isPlain c = true) : lineBreak? (c :: text) = none := by
  have hne := ne_of_isPlain h
  unfold lineBreak?
  split
  · next heq => exact absurd (List.cons.inj heq).1 hne.1
  · next heq => exact absurd (List.cons.inj heq).1 hne.2
  · rfl

theorem continuedLine?_of_isPlain (h : isPlain c = true) (hblank : isBlank c = false) :
    continuedLine? (c :: text) = none := by
  have hskip : skipBlanks (c :: text) = c :: text := by simp [skipBlanks, hblank]
  rw [continuedLine?, hskip, lineBreak?_of_isPlain h]
  rfl

theorem basicLines_plain (fuel : Nat) (hquotes : c = '"' → ∀ more, text ≠ '"' :: '"' :: more)
    (hbackslash : c ≠ '\\') (hplain : isPlain c = true) :
    basicLines (fuel + 1) (c :: text) =
      (basicLines fuel text).map fun (body, rest) => (c :: body, rest) := by
  rw [basicLines.eq_5 _ _ _ (fun more hc => hquotes hc more) hbackslash,
    lineBreak?_of_isPlain hplain]
  dsimp only
  rw [if_pos hplain]

theorem basicLines_break (fuel : Nat) :
    basicLines (fuel + 1) ('\n' :: text) =
      (basicLines fuel text).map fun (body, rest) => ('\n' :: body, rest) :=
  basicLines.eq_5 _ _ _ nofun nofun

theorem basicLines_escape (fuel : Nat) (hcontinued : continuedLine? text = none)
    (h : readEscape text = some (c, rest)) :
    basicLines (fuel + 1) ('\\' :: text) =
      (basicLines fuel rest).map fun (body, rest) => (c :: body, rest) := by
  rw [basicLines.eq_4, hcontinued]
  dsimp only
  rw [h, Option.bind_eq_bind, Option.bind_some]
  cases basicLines fuel rest <;> simp

/-- A character is read back, as it is or as an escape. -/
theorem basicLines_spellChar (fuel : Nat) (hc : c ≠ '"') (text : Text) :
    basicLines (fuel + 1) (spellChar true c ++ text) =
      (basicLines fuel text).map fun (body, rest) => (c :: body, rest) := by
  rcases spellChar_cases true hc with ⟨hspell, hplain, hbackslash⟩ | ⟨-, rfl, hspell⟩ |
    ⟨e, escape, hspell, hplain, hblank, hread⟩
  · rw [hspell]
    exact basicLines_plain fuel (fun heq => absurd heq hc) hbackslash hplain
  · rw [hspell]
    exact basicLines_break fuel
  · rw [hspell]
    exact basicLines_escape fuel (continuedLine?_of_isPlain hplain hblank) (hread text)

theorem spellBody_quote {run : Nat} (h : run < 2) (text : Text) :
    spellBody true run ('"' :: text) = '"' :: spellBody true (run + 1) text := by
  rw [spellBody, if_pos rfl]
  exact if_pos h

/-- Two double quotes that stand as they are, behind another one, are the last characters. -/
theorem spellBody_quotes {run : Nat} {text more : Text} (hrun : run < 2)
    (h : spellBody true (run + 1) text ++ rest = '"' :: '"' :: more) :
    text = [] ∨ run = 0 ∧ text = ['"'] := by
  cases text with
  | nil => exact Or.inl rfl
  | cons d text =>
    refine Or.inr ?_
    by_cases hd : d = '"' ∧ run = 0
    · obtain ⟨rfl, rfl⟩ := hd
      cases text with
      | nil => exact ⟨rfl, rfl⟩
      | cons e text =>
        rw [spellBody_quote (by decide), List.cons_append] at h
        obtain ⟨x, others, hx, hne⟩ := spellBody_head (c := e) true 2 text fun _ _ => Nat.le_refl 2
        rw [hx, List.cons_append] at h
        exact absurd (List.cons.inj (List.cons.inj h).2).1 hne
    · obtain ⟨x, others, hx, hne⟩ := spellBody_head (c := d) true (run + 1) text fun heq _ => by
        have hzero : run ≠ 0 := fun hzero => hd ⟨heq, hzero⟩
        omega
      rw [hx, List.cons_append] at h
      exact absurd (List.cons.inj h).1 hne

/-- What is spelled between three double quotes is read back. -/
theorem basicLines_spellBody (text : Text) (run fuel : Nat) (hrest : rest.head? ≠ some '"')
    (h : (spellBody true run text).length < fuel) :
    basicLines fuel (spellBody true run text ++ (List.replicate 3 '"' ++ rest)) =
      some (text, rest) := by
  -- Induction on the text, the quotes directly before it being passed.
  induction text generalizing run fuel with
  | nil =>
    obtain ⟨fuel, rfl⟩ := Nat.exists_eq_add_of_lt h
    exact basicLines_quotes _ 0 (Nat.zero_le 2) hrest
  | cons c text ih =>
    cases fuel with
    | zero => cases h
    | succ fuel =>
      by_cases hc : c = '"'
      · subst hc
        by_cases hrun : run < 2
        · rw [spellBody_quote hrun, List.length_cons] at h
          have hbehind := ih (run + 1) fuel (by omega)
          -- Quotes at the end of the text are read together with the closing ones.
          by_cases hlast : text = [] ∨ run = 0 ∧ text = ['"']
          · rcases hlast with rfl | ⟨rfl, rfl⟩
            · rw [spellBody_quote hrun]
              exact basicLines_quotes fuel 1 (by decide) hrest
            · exact basicLines_quotes fuel 2 (by decide) hrest
          · rw [spellBody_quote hrun, List.cons_append, basicLines_plain fuel
              (fun _ more hmore => hlast (spellBody_quotes hrun hmore)) (by decide) (by decide),
              hbehind]
            rfl
        · have hle : true = true → 2 ≤ run := fun _ => Nat.not_lt.mp hrun
          rw [spellBody_escaped_quote hle, List.length_cons, List.length_cons] at h
          rw [spellBody_escaped_quote hle, List.cons_append, List.cons_append,
            basicLines_escape fuel (continuedLine?_of_isPlain (by decide) (by decide)) rfl,
            ih 0 fuel (by omega)]
          rfl
      · rw [spellBody_char true run hc, List.length_append] at h
        have hpos := length_spellChar_pos true hc
        rw [spellBody_char true run hc, List.append_assoc, basicLines_spellChar fuel hc,
          ih 0 fuel (by omega)]
        rfl

/-! ## Runs of quotes -/

theorem le_longestRunAfter (quote : Char) (run : Nat) (text : Text) :
    run ≤ longestRunAfter quote run text := by
  induction text generalizing run with
  | nil => exact Nat.le_refl run
  | cons c text ih =>
    rw [longestRunAfter]
    split
    · exact Nat.le_of_succ_le (ih (run + 1))
    · exact Nat.le_max_left ..

/-- A run is no shorter if the text follows more of it. -/
theorem longestRunAfter_le {run more : Nat} (h : run ≤ more) (quote : Char) (text : Text) :
    longestRunAfter quote run text ≤ longestRunAfter quote more text := by
  induction text generalizing run more with
  | nil => exact h
  | cons c text ih =>
    rw [longestRunAfter, longestRunAfter]
    split
    · exact ih (Nat.succ_le_succ h)
    · omega

theorem notMem_of_longestRunAfter {run : Nat} (h : longestRunAfter quote run text = 0) :
    quote ∉ text := by
  induction text generalizing run with
  | nil => exact List.not_mem_nil
  | cons c text ih =>
    rw [longestRunAfter] at h
    split at h
    · have hle := le_longestRunAfter quote (run + 1) text
      omega
    · next hc =>
      rw [List.mem_cons, not_or]
      exact ⟨fun heq => hc heq.symm, ih (Nat.max_eq_zero_iff.mp h).2⟩

/-! ## Several lines without escapes -/

theorem literalLines_quotes (fuel n : Nat) (hn : n ≤ 2) (hrest : rest.head? ≠ some '\'') :
    literalLines (fuel + 1) (List.replicate n '\'' ++ List.replicate 3 '\'' ++ rest) =
      some (List.replicate n '\'', rest) := by
  rw [quotes_append, literalLines, closing_append hn hrest]

theorem literalLines_plain (fuel : Nat) (hquotes : c = '\'' → ∀ more, text ≠ '\'' :: '\'' :: more)
    (hplain : isPlain c = true) :
    literalLines (fuel + 1) (c :: text) =
      (literalLines fuel text).map fun (body, rest) => (c :: body, rest) := by
  rw [literalLines.eq_4 _ _ _ (fun more hc => hquotes hc more), lineBreak?_of_isPlain hplain]
  dsimp only
  rw [if_pos hplain]

theorem literalLines_break (fuel : Nat) :
    literalLines (fuel + 1) ('\n' :: text) =
      (literalLines fuel text).map fun (body, rest) => ('\n' :: body, rest) :=
  literalLines.eq_4 _ _ _ nofun

/-- Two single quotes behind another one are the last characters. -/
theorem quotes_of_longestRunAfter {more : Text} (hrun : longestRunAfter '\'' 1 text ≤ 2)
    (h : text ++ rest = '\'' :: '\'' :: more) : text = [] ∨ text = ['\''] := by
  match text, hrun, h with
  | [], _, _ => exact Or.inl rfl
  | ['\''], _, _ => exact Or.inr rfl
  | d :: e :: text, hrun, h =>
    obtain ⟨rfl, htail⟩ := List.cons.inj h
    obtain ⟨rfl, -⟩ := List.cons.inj htail
    have hle := le_longestRunAfter '\'' 3 text
    exact absurd (Nat.le_trans hle hrun) (by decide)

/-- What stands between three single quotes is read as it is. -/
theorem literalLines_append (text : Text) (fuel : Nat) (hcodes : ∀ c ∈ text, needsCode c = false)
    (hrun : longestRun '\'' text ≤ 2) (hrest : rest.head? ≠ some '\'') (h : text.length < fuel) :
    literalLines fuel (text ++ (List.replicate 3 '\'' ++ rest)) = some (text, rest) := by
  induction text generalizing fuel with
  | nil =>
    obtain ⟨fuel, rfl⟩ := Nat.exists_eq_add_of_lt h
    exact literalLines_quotes _ 0 (Nat.zero_le 2) hrest
  | cons c text ih =>
    cases fuel with
    | zero => cases h
    | succ fuel =>
      rw [List.forall_mem_cons] at hcodes
      rw [List.length_cons] at h
      rw [longestRun, longestRunAfter] at hrun
      by_cases hc : c = '\''
      · subst hc
        rw [if_pos rfl] at hrun
        by_cases hlast : text = [] ∨ text = ['\'']
        · rcases hlast with rfl | rfl
          · exact literalLines_quotes fuel 1 (by decide) hrest
          · exact literalLines_quotes fuel 2 (by decide) hrest
        · have hle := longestRunAfter_le (Nat.zero_le 1) '\'' text
          rw [List.cons_append, literalLines_plain fuel
            (fun _ more hmore => hlast (quotes_of_longestRunAfter hrun hmore)) (by decide),
            ih fuel hcodes.2 (Nat.le_trans hle hrun) (by omega)]
          rfl
      · rw [if_neg hc] at hrun
        have hrest' := ih fuel hcodes.2 (Nat.le_trans (Nat.le_max_right ..) hrun) (by omega)
        by_cases hbreak : c = '\n'
        · subst hbreak
          rw [List.cons_append, literalLines_break, hrest']
          rfl
        · rw [List.cons_append, literalLines_plain fuel (fun heq => absurd heq hc)
            (isPlain_of_not_needsCode hcodes.1 hbreak), hrest']
          rfl

/-! ## Strings in any form -/

theorem readString_basic (hrest : rest.head? ≠ some '"') (text : Text) :
    readString ('"' :: (spellBody false 0 text ++ '"' :: rest)) = some (text, rest) := by
  have hquotes : ∀ more, spellBody false 0 text ++ '"' :: rest ≠ '"' :: '"' :: more := by
    intro more h
    cases text with
    | nil =>
      apply hrest
      rw [(List.cons.inj h).2]
      rfl
    | cons c text =>
      obtain ⟨d, others, hspell, hd⟩ := spellBody_head (c := c) false 0 text nofun
      rw [hspell] at h
      exact hd (List.cons.inj h).1
  rw [readString.eq_2 _ hquotes, readBasic]
  exact basicBody_spellBody text rest 0 _ (by simp only [List.length_append]; omega)

theorem skipFirstBreak_of_isPlain (h : isPlain c = true) :
    skipFirstBreak (c :: text) = c :: text := by
  rw [skipFirstBreak, lineBreak?_of_isPlain h]
  rfl

/-- In front of a string with line breaks there is another one, and only that one is skipped. -/
theorem skipFirstBreak_opening {body : Text}
    (h : '\n' ∉ text → ∃ c more, body = c :: more ∧ isPlain c = true) :
    skipFirstBreak ((if text.contains '\n' then ['\n'] else []) ++ body) = body := by
  by_cases hbreak : '\n' ∈ text
  · rw [if_pos (by simpa using hbreak)]
    rfl
  · obtain ⟨c, more, rfl, hplain⟩ := h hbreak
    rw [if_neg (by simpa using hbreak)]
    exact skipFirstBreak_of_isPlain hplain

/-- A string without line breaks does not start with one when it is spelled. -/
theorem spellBody_isPlain (h : '\n' ∉ text) (rest : Text) :
    ∃ c more, spellBody true 0 text ++ (List.replicate 3 '"' ++ rest) = c :: more ∧
      isPlain c = true := by
  cases text with
  | nil => exact ⟨'"', _, rfl, by decide⟩
  | cons c text =>
    by_cases hc : c = '"'
    · subst hc
      exact ⟨'"', _, rfl, by decide⟩
    · rw [spellBody_char true 0 hc]
      rcases spellChar_cases true hc with ⟨hspell, hplain, -⟩ | ⟨-, rfl, -⟩ | ⟨e, escape, hspell, -⟩
      · exact ⟨c, _, by rw [hspell]; rfl, hplain⟩
      · exact absurd (List.mem_cons_self ..) h
      · exact ⟨'\\', _, by rw [hspell]; rfl, by decide⟩

theorem readString_basicLines (hrest : rest.head? ≠ some '"') (text : Text) :
    readString (opening '"' text ++ (spellBody true 0 text ++ (List.replicate 3 '"' ++ rest))) =
      some (text, rest) := by
  have hopen : opening '"' text ++ (spellBody true 0 text ++ (List.replicate 3 '"' ++ rest)) =
      '"' :: '"' :: '"' :: ((if text.contains '\n' then ['\n'] else []) ++
        (spellBody true 0 text ++ (List.replicate 3 '"' ++ rest))) := by
    rw [opening, List.append_assoc]
    rfl
  rw [hopen, readString.eq_1, readBasicLines,
    skipFirstBreak_opening fun hbreak => spellBody_isPlain hbreak rest]
  exact basicLines_spellBody text 0 _ hrest (by simp only [List.length_append]; omega)

theorem readString_literal (hne : text ≠ []) (hplain : ∀ c ∈ text, isPlain c = true ∧ c ≠ '\'')
    (rest : Text) :
    readString ('\'' :: (text ++ '\'' :: rest)) = some (text, rest) := by
  have htake : (text ++ '\'' :: rest).takeWhile (fun c => isPlain c && c != '\'') = text := by
    rw [List.takeWhile_append_of_pos (by simpa using hplain)]
    simp
  have hquotes : ∀ more, text ++ '\'' :: rest ≠ '\'' :: '\'' :: more := by
    intro more h
    cases text with
    | nil => exact hne rfl
    | cons c text => exact (hplain c (List.mem_cons_self ..)).2 (List.cons.inj h).1
  have hread : readString ('\'' :: (text ++ '\'' :: rest)) =
      readLiteral ('\'' :: (text ++ '\'' :: rest)) := by
    unfold readString
    split
    · next heq => cases heq
    · next heq => cases heq
    · next heq => exact absurd (List.cons.inj heq).2 (hquotes _)
    · rfl
  simp only [hread, readLiteral, htake, List.drop_left]

theorem readString_literalLines (hrest : rest.head? ≠ some '\'')
    (hcodes : ∀ c ∈ text, needsCode c = false) (hrun : longestRun '\'' text ≤ 2) :
    readString (opening '\'' text ++ (text ++ (List.replicate 3 '\'' ++ rest))) =
      some (text, rest) := by
  have hopen : opening '\'' text ++ (text ++ (List.replicate 3 '\'' ++ rest)) =
      '\'' :: '\'' :: '\'' :: ((if text.contains '\n' then ['\n'] else []) ++
        (text ++ (List.replicate 3 '\'' ++ rest))) := by
    rw [opening, List.append_assoc]
    rfl
  have hstart : '\n' ∉ text → ∃ c more, text ++ (List.replicate 3 '\'' ++ rest) = c :: more ∧
      isPlain c = true := by
    intro hbreak
    cases text with
    | nil => exact ⟨'\'', _, rfl, by decide⟩
    | cons c text =>
      rw [List.forall_mem_cons] at hcodes
      rw [List.mem_cons, not_or] at hbreak
      exact ⟨c, _, rfl, isPlain_of_not_needsCode hcodes.1 (Ne.symm hbreak.1)⟩
  rw [hopen, readString.eq_3, readLiteralLines, skipFirstBreak_opening hstart]
  exact literalLines_append text _ hcodes hrun hrest (by simp only [List.length_append]; omega)

/-- A string is read as it was spelled, unless it goes on with a quote. -/
theorem readString_spellString (text : Text) (hdouble : rest.head? ≠ some '"')
    (hsingle : rest.head? ≠ some '\'') :
    readString (spellString text ++ rest) = some (text, rest) := by
  have hbasic := readString_basic hdouble text
  have hbasicLines := readString_basicLines hdouble text
  unfold spellString
  dsimp only
  split
  · simpa using hbasic
  next hnone =>
    split
    · next h =>
      simp only [Bool.and_eq_true, Bool.not_eq_true', List.any_eq_false, Bool.not_eq_true,
        decide_eq_true_eq, List.contains_eq_mem, decide_eq_false_iff_not] at h
      have hne : text ≠ [] := by
        rintro rfl
        exact hnone (by decide)
      have hplain : ∀ c ∈ text, isPlain c = true ∧ c ≠ '\'' := by
        intro c hc
        refine ⟨isPlain_of_not_needsCode (h.1.1 c hc) ?_, ?_⟩
        · rintro rfl
          exact h.1.2 hc
        · rintro rfl
          exact notMem_of_longestRunAfter h.2 hc
      simpa using readString_literal hne hplain rest
    split
    · simpa using hbasicLines
    split
    · next h =>
      simp only [Bool.and_eq_true, Bool.not_eq_true', List.any_eq_false, Bool.not_eq_true,
        decide_eq_true_eq] at h
      simpa using readString_literalLines hsingle h.1 h.2
    split
    · simpa using hbasicLines
    · simpa using hbasic

end ItemFilter.Toml
