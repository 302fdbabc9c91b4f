import ScriptSessions.Proofs.Lists
import ScriptSessions.Toml.Printer
import ScriptSessions.Toml.Strings

set_option autoImplicit false

/-! # Strings are read back

A string is written in one of four forms, and the reader has to find its end in each of them.
Between single quotes or double ones the end is the first quote that is not escaped. Between three
quotes the end is the first place at which three of them stand in a row. The writer takes care that
this place is not reached too early: every third double quote of a run is escaped, and a text with
three single quotes in a row is not written in this form. Quotes at the very end of a text stand
before the closing ones, and the reader takes them back from there.

Both readers that know escapes deal with them alike (`ReadsEscapes`), so what is written for a
single character is read back in one lemma for the two.
-/

namespace ScriptSessions.Toml

open Text

/-! ## Characters -/

theorem isPlain_of_isControl_eq_false {c : Char} (h : isControl c = false) (newline : c ≠ '\n') :
    isPlain c = true := by
  simp only [isControl, Bool.or_eq_false_iff, Bool.and_eq_false_iff, decide_eq_false_iff_not,
    Char.not_lt, bne_eq_false_iff_eq, beq_eq_false_iff_ne] at h
  simp only [isPlain, Bool.or_eq_true, beq_iff_eq, Bool.and_eq_true, decide_eq_true_eq,
    bne_iff_ne]
  rcases h with ⟨(hle | htab) | hnewline, hdelete⟩
  · exact .inr ⟨hle, hdelete⟩
  · exact .inl htab
  · exact absurd hnewline newline

theorem toNat_lt_of_isControl {c : Char} (h : isControl c = true) : c.toNat < 65536 := by
  simp only [isControl, Bool.or_eq_true, Bool.and_eq_true, decide_eq_true_eq, beq_iff_eq] at h
  rcases h with ⟨⟨hlt, -⟩, -⟩ | rfl
  · exact Nat.lt_trans (UInt32.lt_iff_toNat_lt.mp (Char.lt_def.mp hlt)) (by decide)
  · decide

/-! ## Numbers of characters -/

theorem hexValue?_escapeDigit (d : Fin 16) : hexValue? (hexDigit d).toUpper = some d := by
  revert d
  decide

theorem afterDigit?_escapeDigit (left value : Nat) (d : Fin 16) :
    afterDigit? (left + 2) value (hexDigit d).toUpper
      = some (.inr (.digits (left + 1) (16 * value + d.val))) := by
  simp [afterDigit?, hexValue?_escapeDigit]

theorem charOfNat?_toNat (c : Char) : charOfNat? c.toNat = some c := by
  have hvalid : c.toNat.isValidChar := c.valid
  rw [charOfNat?, if_pos hvalid, Char.ofNat_toNat]

/-- The four digits of an escape lead back to the character. -/
theorem exists_escapeDigits {c : Char} (h : c.toNat < 65536) :
    ∃ (d₃ d₂ d₁ d₀ : Char) (v₃ v₂ v₁ : Nat), escapeDigits c = [d₃, d₂, d₁, d₀] ∧
      afterDigit? 4 0 d₃ = some (.inr (.digits 3 v₃)) ∧
      afterDigit? 3 v₃ d₂ = some (.inr (.digits 2 v₂)) ∧
      afterDigit? 2 v₂ d₁ = some (.inr (.digits 1 v₁)) ∧
      afterDigit? 1 v₁ d₀ = some (.inl c) := by
  refine ⟨_, _, _, _, _, _, _, rfl, afterDigit?_escapeDigit 2 0 _, afterDigit?_escapeDigit 1 _ _,
    afterDigit?_escapeDigit 0 _ _, ?_⟩
  -- the character is below `65536`, so no digit is missing
  have hnumber : 16 * (16 * (16 * (16 * 0 + (Fin.ofNat 16 (c.toNat >>> (4 * 3))).val)
      + (Fin.ofNat 16 (c.toNat >>> (4 * 2))).val) + (Fin.ofNat 16 (c.toNat >>> (4 * 1))).val)
      + (Fin.ofNat 16 (c.toNat >>> (4 * 0))).val = c.toNat := by
    simp only [Fin.ofNat, Nat.shiftRight_eq_div_pow]
    omega
  simp only [afterDigit?, hexValue?_escapeDigit]
  rw [if_pos (Nat.le_refl 1), hnumber, charOfNat?_toNat]
  rfl

/-! ## Escapes -/

/-- How the body of a string is read whose characters may be escaped. -/
structure ReadsEscapes (body? : Escape → List Char → Option (List Char × List Char)) : Prop where
  backslash : ∀ s, body? .nothing ('\\' :: s) = body? .begun s
  letter : ∀ c d s, afterBackslash? c = some (.inl d) →
    body? .begun (c :: s) = prepend d (body? .nothing s)
  number : ∀ c escape s, afterBackslash? c = some (.inr escape) →
    body? .begun (c :: s) = body? escape s
  digit : ∀ left value c escape s, afterDigit? left value c = some (.inr escape) →
    body? (.digits left value) (c :: s) = body? escape s
  lastDigit : ∀ left value c d s, afterDigit? left value c = some (.inl d) →
    body? (.digits left value) (c :: s) = prepend d (body? .nothing s)
  plain : ∀ c s, isPlain c = true → c ≠ '"' → c ≠ '\\' →
    body? .nothing (c :: s) = prepend c (body? .nothing s)

/-- A character that is written by an escape, or for itself, is read back. -/
theorem ReadsEscapes.escapeChar {body? : Escape → List Char → Option (List Char × List Char)}
    (h : ReadsEscapes body?) {c : Char} (quote : c ≠ '"') (newline : c ≠ '\n')
    (rest : List Char) :
    body? .nothing (escapeChar c ++ rest) = prepend c (body? .nothing rest) := by
  have hshort (letter d : Char) (hletter : afterBackslash? letter = some (.inl d)) :
      body? .nothing (['\\', letter] ++ rest) = prepend d (body? .nothing rest) :=
    (h.backslash _).trans (h.letter letter d rest hletter)
  unfold Toml.escapeChar
  split
  · exact hshort '\\' '\\' rfl
  · exact hshort 'b' '\x08' rfl
  · exact hshort 't' '\t' rfl
  · exact hshort 'f' '\x0c' rfl
  · exact hshort 'r' '\r' rfl
  · next hbackslash _ _ _ _ =>
      split
      · next hcontrol =>
          obtain ⟨d₃, d₂, d₁, d₀, v₃, v₂, v₁, hdigits, h₃, h₂, h₁, h₀⟩ :=
            exists_escapeDigits (toNat_lt_of_isControl hcontrol)
          rw [hdigits]
          calc body? .nothing ('\\' :: 'u' :: d₃ :: d₂ :: d₁ :: d₀ :: rest)
              = body? (.digits 4 0) (d₃ :: d₂ :: d₁ :: d₀ :: rest) :=
                (h.backslash _).trans (h.number 'u' _ _ rfl)
            _ = body? (.digits 3 v₃) (d₂ :: d₁ :: d₀ :: rest) := h.digit _ _ _ _ _ h₃
            _ = body? (.digits 2 v₂) (d₁ :: d₀ :: rest) := h.digit _ _ _ _ _ h₂
            _ = body? (.digits 1 v₁) (d₀ :: rest) := h.digit _ _ _ _ _ h₁
            _ = prepend c (body? .nothing rest) := h.lastDigit _ _ _ _ _ h₀
      · next hcontrol =>
          have hplain := isPlain_of_isControl_eq_false (by simpa using hcontrol) newline
          exact h.plain c rest hplain quote (by simpa using hbackslash)

theorem readsEscapes_basicBody : ReadsEscapes basicBody? := by
  constructor
  · intro s
    rfl
  · intro c d s hc
    simp only [basicBody?, hc]
  · intro c escape s hc
    simp only [basicBody?, hc]
  · intro left value c escape s hc
    simp only [basicBody?, hc]
  · intro left value c d s hc
    simp only [basicBody?, hc]
  · intro c s plain quote backslash
    simp only [basicBody?, quote, backslash, plain, if_true, if_false]

/-- What may stand after a backslash does not end the line. -/
theorem ends_nothing_of_afterBackslash? {c : Char} {next : Sum Char Escape}
    (h : afterBackslash? c = some next) (rest : List Char) :
    isLineSpace c = false ∧ c ≠ '\n' ∧ endsLine c rest = false := by
  have hne (d : Char) (hd : afterBackslash? d = none) : c ≠ d := by
    rintro rfl
    rw [hd] at h
    cases h
  have hspace := hne ' ' rfl
  have htab := hne '\t' rfl
  have hnewline := hne '\n' rfl
  have hreturn := hne '\r' rfl
  simp [isLineSpace, endsLine, hspace, htab, hnewline, hreturn]

theorem readsEscapes_longBasicBody : ReadsEscapes longBasicBody? := by
  constructor
  · intro s
    simp [longBasicBody?]
  · intro c d s hc
    obtain ⟨hspace, hnewline, hends⟩ := ends_nothing_of_afterBackslash? hc s
    simp [longBasicBody?, hspace, hnewline, hends, hc]
  · intro c escape s hc
    obtain ⟨hspace, hnewline, hends⟩ := ends_nothing_of_afterBackslash? hc s
    simp [longBasicBody?, hspace, hnewline, hends, hc]
  · intro left value c escape s hc
    simp only [longBasicBody?, hc]
  · intro left value c d s hc
    simp only [longBasicBody?, hc]
  · intro c s plain quote backslash
    simp [longBasicBody?, quote, backslash, plain]

/-- Whether a text does not begin with a given character. -/
def NotAhead (c : Char) (s : List Char) : Prop := s.head? ≠ some c

/-! ## Strings on one line -/

theorem basicBody?_escapeShort (s rest : List Char) :
    basicBody? .nothing (s.flatMap escapeShort ++ '"' :: rest) = some (s, rest) := by
  induction s with
  | nil => rfl
  | cons c s ih =>
      have hchar : basicBody? .nothing (escapeShort c ++ (s.flatMap escapeShort ++ '"' :: rest))
          = prepend c (basicBody? .nothing (s.flatMap escapeShort ++ '"' :: rest)) := by
        unfold escapeShort
        split
        · rfl
        · rfl
        · next hquote hnewline =>
            exact readsEscapes_basicBody.escapeChar hquote hnewline _
      rw [List.flatMap_cons, List.append_assoc, hchar, ih]
      rfl

/-- A character is written by an escape or stands for itself. -/
theorem escapeChar_cases (c : Char) :
    (∃ escape, escapeChar c = '\\' :: escape) ∨ isControl c = false ∧ escapeChar c = [c] := by
  unfold escapeChar
  split
  · exact .inl ⟨_, rfl⟩
  · exact .inl ⟨_, rfl⟩
  · exact .inl ⟨_, rfl⟩
  · exact .inl ⟨_, rfl⟩
  · exact .inl ⟨_, rfl⟩
  · split
    · exact .inl ⟨_, rfl⟩
    · next hcontrol => exact .inr ⟨by simpa using hcontrol, rfl⟩

theorem notAhead_escapeChar {c : Char} (quote : c ≠ '"') (rest : List Char) :
    NotAhead '"' (escapeChar c ++ rest) := by
  rcases escapeChar_cases c with ⟨escape, hescape⟩ | ⟨-, hself⟩
  · rw [hescape]
    exact nofun
  · rw [hself]
    simpa [NotAhead] using quote

theorem notAhead_escapeShort (c : Char) (rest : List Char) :
    NotAhead '"' (escapeShort c ++ rest) := by
  unfold escapeShort
  split
  · exact nofun
  · exact nofun
  · next hquote _ => exact notAhead_escapeChar hquote rest

theorem take_two_ne_of_notAhead {c : Char} {s : List Char} (h : NotAhead c s) :
    s.take 2 ≠ [c, c] := by
  intro htake
  cases s with
  | nil => cases htake
  | cons d s =>
      simp only [List.take_succ_cons, List.cons.injEq] at htake
      exact h (congrArg some htake.1)

theorem take_two_cons_ne_of_notAhead {c : Char} {s : List Char} (h : NotAhead c s) (d : Char) :
    (d :: s).take 2 ≠ [c, c] := by
  intro htake
  cases s with
  | nil => cases (List.cons.inj htake).2
  | cons e s => exact h (congrArg some (List.cons.inj (List.cons.inj htake).2).1)

/-- A string that does not begin with three quotes is one on a line. -/
theorem string?_of_double {s : List Char} (h : s.take 2 ≠ ['"', '"']) :
    string? ('"' :: s) = basicBody? .nothing s := by
  unfold string?
  split
  · next heq =>
      rw [(List.cons.inj heq).2] at h
      exact absurd rfl h
  · next heq => rw [(List.cons.inj heq).2]
  · next heq => cases (List.cons.inj heq).1
  · next heq => cases (List.cons.inj heq).1
  · next h _ _ => exact absurd rfl (h s)

theorem string?_of_single {s : List Char} (h : s.take 2 ≠ ['\'', '\'']) :
    string? ('\'' :: s) = literalBody? s := by
  unfold string?
  split
  · next heq => cases (List.cons.inj heq).1
  · next heq => cases (List.cons.inj heq).1
  · next heq =>
      rw [(List.cons.inj heq).2] at h
      exact absurd rfl h
  · next heq => rw [(List.cons.inj heq).2]
  · next h => exact absurd rfl (h s)

theorem string?_basic (s rest : List Char) (after : NotAhead '"' rest) :
    string? (renderStringAs .basic s ++ rest) = some (s, rest) := by
  have htext : renderStringAs .basic s ++ rest = '"' :: (s.flatMap escapeShort ++ '"' :: rest) := by
    simp [renderStringAs]
  have hsingle : (s.flatMap escapeShort ++ '"' :: rest).take 2 ≠ ['"', '"'] := by
    cases s with
    | nil => exact take_two_cons_ne_of_notAhead after '"'
    | cons c s =>
        rw [List.flatMap_cons, List.append_assoc]
        exact take_two_ne_of_notAhead (notAhead_escapeShort c _)
  rw [htext, string?_of_double hsingle, basicBody?_escapeShort]

theorem string?_literal {s : List Char} (nonempty : s ≠ [])
    (bare : ∀ c ∈ s, isControl c = false ∧ c ≠ '\n' ∧ c ≠ '\'') (rest : List Char) :
    string? (renderStringAs .literal s ++ rest) = some (s, rest) := by
  have htext : renderStringAs .literal s ++ rest = '\'' :: (s ++ '\'' :: rest) := by
    simp [renderStringAs]
  have hsingle : (s ++ '\'' :: rest).take 2 ≠ ['\'', '\''] := by
    obtain ⟨c, s', rfl⟩ := List.exists_cons_of_ne_nil nonempty
    refine take_two_ne_of_notAhead fun hhead => ?_
    exact (bare c List.mem_cons_self).2.2 (Option.some.inj hhead)
  have hbody : ∀ c ∈ s, (isPlain c && c != '\'') = true := by
    intro c hc
    obtain ⟨hcontrol, hnewline, hquote⟩ := bare c hc
    simp [isPlain_of_isControl_eq_false hcontrol hnewline, hquote]
  rw [htext, string?_of_single hsingle]
  simp only [literalBody?,
    dropWhile_append_cons (p := fun c => isPlain c && c != '\'') (a := '\'') hbody rfl rest,
    takeWhile_append_cons (p := fun c => isPlain c && c != '\'') (a := '\'') hbody rfl rest]

/-! ## Strings on several lines -/

/-- Up to two quotes before the closing ones belong to the string. -/
theorem closing_replicate {quote : Char} {n : Nat} (few : n ≤ 2) {rest : List Char}
    (after : NotAhead quote rest) :
    closing quote (List.replicate n quote ++ rest) = (List.replicate n quote, rest) := by
  have hrest : rest.takeWhile (· == quote) = [] := by
    cases rest with
    | nil => rfl
    | cons c rest =>
        have hne : c ≠ quote := fun heq => after (congrArg some heq)
        rw [List.takeWhile_cons_of_neg (by simpa using hne)]
  have hrun : (List.replicate n quote ++ rest).takeWhile (· == quote) = List.replicate n quote := by
    rw [List.takeWhile_append_of_pos (by simp), hrest, List.append_nil]
  rw [closing, hrun, List.take_of_length_le (by simpa using few)]
  simp

theorem escapeLong_of_ne {c : Char} (quote : c ≠ '"') (run : Nat) (s : List Char) :
    escapeLong run (c :: s) = escapeChar c ++ escapeLong 0 s := by
  simp [escapeLong]

/-- Two quotes that are not escaped stand after another one only at the end. -/
theorem eq_of_take_escapeLong {run : Nat} {s rest : List Char} (one : 1 ≤ run) (few : run ≤ 2)
    (h : (escapeLong run s ++ (threeDouble ++ rest)).take 2 = ['"', '"']) :
    s = [] ∨ s = ['"'] ∧ run = 1 := by
  have hother {c : Char} (hc : c ≠ '"') (run : Nat) (s : List Char) :
      NotAhead '"' (escapeLong run (c :: s) ++ (threeDouble ++ rest)) := by
    rw [escapeLong_of_ne hc, List.append_assoc]
    exact notAhead_escapeChar hc _
  cases s with
  | nil => exact .inl rfl
  | cons c s =>
      by_cases hc : c = '"'
      · subst hc
        by_cases hrun : run = 2
        · subst hrun
          cases h
        · have hone : run = 1 := by omega
          subst hone
          cases s with
          | nil => exact .inr ⟨rfl, rfl⟩
          | cons d s =>
              by_cases hd : d = '"'
              · -- the second of them would be the third of its run
                subst hd
                cases h
              · exact absurd h (take_two_cons_ne_of_notAhead (hother hd 2 s) '"')
      · exact absurd h (take_two_ne_of_notAhead (hother hc run s))

/-- The first three quotes of the last run end the string, and the others belong to it. -/
theorem longBasicBody?_closing {n : Nat} (few : n ≤ 2) {rest : List Char}
    (after : NotAhead '"' rest) :
    longBasicBody? .nothing (threeDouble ++ (List.replicate n '"' ++ rest))
      = some (List.replicate n '"', rest) := by
  rw [← closing_replicate few after]
  simp [threeDouble, longBasicBody?]

theorem longBasicBody?_quote {s : List Char} (h : s.take 2 ≠ ['"', '"']) :
    longBasicBody? .nothing ('"' :: s) = prepend '"' (longBasicBody? .nothing s) := by
  simp [longBasicBody?, h]

theorem longBasicBody?_escapedQuote (s : List Char) :
    longBasicBody? .nothing ('\\' :: '"' :: s) = prepend '"' (longBasicBody? .nothing s) :=
  (readsEscapes_longBasicBody.backslash _).trans (readsEscapes_longBasicBody.letter '"' '"' s rfl)

theorem longBasicBody?_escapeChar {c : Char} (quote : c ≠ '"') (rest : List Char) :
    longBasicBody? .nothing (escapeChar c ++ rest)
      = prepend c (longBasicBody? .nothing rest) := by
  by_cases hnewline : c = '\n'
  · subst hnewline
    rfl
  · exact readsEscapes_longBasicBody.escapeChar quote hnewline rest

theorem longBasicBody?_escapeLong {run : Nat} (few : run ≤ 2) (s : List Char) {rest : List Char}
    (after : NotAhead '"' rest) :
    longBasicBody? .nothing (escapeLong run s ++ (threeDouble ++ rest)) = some (s, rest) := by
  -- the quotes of a run are counted, so what is left of the text comes after any number of them
  induction s generalizing run with
  | nil => exact longBasicBody?_closing (n := 0) (by decide) after
  | cons c s ih =>
      by_cases hc : c = '"'
      · subst hc
        by_cases hrun : run = 2
        · -- the third quote of a run is escaped
          subst hrun
          have hread := longBasicBody?_escapedQuote (escapeLong 0 s ++ (threeDouble ++ rest))
          exact hread.trans (by rw [ih (by decide)]; rfl)
        · have htext : escapeLong run ('"' :: s) = '"' :: escapeLong (run + 1) s := by
            simp [escapeLong, hrun]
          rw [htext, List.cons_append]
          by_cases htake : (escapeLong (run + 1) s ++ (threeDouble ++ rest)).take 2 = ['"', '"']
          · -- the string ends here, and the reader takes its last quotes for the closing ones
            rcases eq_of_take_escapeLong (by omega) (by omega) htake with rfl | ⟨rfl, hone⟩
            · exact longBasicBody?_closing (n := 1) (by decide) after
            · have hzero : run = 0 := by omega
              subst hzero
              exact longBasicBody?_closing (n := 2) (by decide) after
          · rw [longBasicBody?_quote htake, ih (by omega)]
            rfl
      · rw [escapeLong_of_ne hc, List.append_assoc, longBasicBody?_escapeChar hc, ih (by decide)]
        rfl

/-! ## Runs of quotes -/

/-- What `longestRun` does at a character: it keeps the longest run so far, and the current one. -/
theorem le_longestRun_foldl (c : Char) (s : List Char) (state : Nat × Nat) :
    state.1 ≤ (s.foldl (fun (best, current) d =>
      if d = c then (max best (current + 1), current + 1) else (best, 0)) state).1 := by
  induction s generalizing state with
  | nil => exact Nat.le_refl _
  | cons d s ih =>
      refine Nat.le_trans ?_ (ih _)
      dsimp only
      split
      · exact Nat.le_max_left ..
      · exact Nat.le_refl _

/-- A text without a long run of a character does not hold three of them in a row. -/
theorem not_three_of_longestRun {c : Char} {s : List Char} (h : longestRun c s ≤ 2) :
    ¬ [c, c, c] <:+: s := by
  rintro ⟨before, after, rfl⟩
  rw [longestRun, List.foldl_append, List.foldl_append] at h
  have hle := Nat.le_trans (le_longestRun_foldl c after _) h
  simp only [List.foldl_cons, List.foldl_nil, if_pos] at hle
  omega

theorem longLiteralBody?_closing {n : Nat} (few : n ≤ 2) {rest : List Char}
    (after : NotAhead '\'' rest) :
    longLiteralBody? (threeSingle ++ (List.replicate n '\'' ++ rest))
      = some (List.replicate n '\'', rest) := by
  rw [← closing_replicate few after]
  simp [threeSingle, longLiteralBody?]

/-- A character that does not begin three quotes stands for itself. -/
theorem longLiteralBody?_cons {c : Char} (bare : isControl c = false) {s : List Char}
    (h : c = '\'' → s.take 2 ≠ ['\'', '\'']) :
    longLiteralBody? (c :: s) = prepend c (longLiteralBody? s) := by
  have hclosing : ¬ (c = '\'' ∧ s.take 2 = ['\'', '\'']) := fun hc => h hc.1 hc.2
  have hbody : (isPlain c || endsLine c s) = true := by
    by_cases hnewline : c = '\n'
    · simp [endsLine, hnewline]
    · simp [isPlain_of_isControl_eq_false bare hnewline]
  rw [longLiteralBody?, if_neg hclosing, if_pos hbody]

theorem longLiteralBody?_append {s : List Char} (bare : ∀ c ∈ s, isControl c = false)
    (runs : ¬ ['\'', '\'', '\''] <:+: s) {rest : List Char} (after : NotAhead '\'' rest) :
    longLiteralBody? (s ++ (threeSingle ++ rest)) = some (s, rest) := by
  induction s with
  | nil => exact longLiteralBody?_closing (n := 0) (by decide) after
  | cons c s ih =>
      have hrest := ih (fun d hd => bare d (List.mem_cons_of_mem _ hd))
        fun h => runs (h.trans (List.suffix_cons c s).isInfix)
      by_cases hend : c = '\'' ∧ (s ++ (threeSingle ++ rest)).take 2 = ['\'', '\'']
      · -- the string ends here, and the reader takes its last quotes for the closing ones
        obtain ⟨rfl, htake⟩ := hend
        cases s with
        | nil => exact longLiteralBody?_closing (n := 1) (by decide) after
        | cons d s =>
            obtain ⟨rfl, hlast⟩ := List.cons.inj htake
            cases s with
            | nil => exact longLiteralBody?_closing (n := 2) (by decide) after
            | cons e s =>
                obtain ⟨rfl, -⟩ := List.cons.inj hlast
                exact absurd (List.prefix_append ['\'', '\'', '\''] s).isInfix runs
      · rw [List.cons_append, longLiteralBody?_cons (bare c List.mem_cons_self)
          fun hc htake => hend ⟨hc, htake⟩, hrest]
        rfl

/-! ## The form that is chosen -/

/-- Whether no line end is dropped that belongs to a text. -/
def KeepsFirst (s : List Char) : Prop := NotAhead '\n' s ∧ NotAhead '\r' s

/-- The line end that is written after the opening quotes is dropped, and no other. -/
theorem dropFirstLineEnd_opening {s text : List Char} (h : '\n' ∉ s → KeepsFirst text) :
    dropFirstLineEnd ((if '\n' ∈ s then ['\n'] else []) ++ text) = text := by
  split
  · rfl
  · next hnewline =>
      obtain ⟨hn, hr⟩ := h hnewline
      unfold dropFirstLineEnd
      split
      · next heq =>
          rw [List.nil_append] at heq
          exact absurd (by rw [heq]; rfl) hn
      · next heq =>
          rw [List.nil_append] at heq
          exact absurd (by rw [heq]; rfl) hr
      · rfl

theorem keepsFirst_of_bare {c : Char} (control : isControl c = false) (newline : c ≠ '\n')
    (s : List Char) : KeepsFirst (c :: s) := by
  refine ⟨fun h => newline (Option.some.inj h), fun h => ?_⟩
  rw [Option.some.inj h] at control
  cases control

theorem keepsFirst_escapeLong {s : List Char} (newline : '\n' ∉ s) (rest : List Char) :
    KeepsFirst (escapeLong 0 s ++ (threeDouble ++ rest)) := by
  cases s with
  | nil => exact ⟨nofun, nofun⟩
  | cons c s =>
      by_cases hc : c = '"'
      · subst hc
        exact ⟨nofun, nofun⟩
      · rw [escapeLong_of_ne hc, List.append_assoc]
        rcases escapeChar_cases c with ⟨escape, hescape⟩ | ⟨hcontrol, hself⟩
        · rw [hescape]
          exact ⟨nofun, nofun⟩
        · rw [hself]
          exact keepsFirst_of_bare hcontrol (fun h => newline (h ▸ List.mem_cons_self)) _

theorem longOpening_append (quotes s text : List Char) :
    longOpening quotes s ++ text = quotes ++ ((if '\n' ∈ s then ['\n'] else []) ++ text) := by
  unfold longOpening
  split <;> simp

theorem string?_longBasic (s : List Char) {rest : List Char} (after : NotAhead '"' rest) :
    string? (renderStringAs .longBasic s ++ rest) = some (s, rest) := by
  have htext : renderStringAs .longBasic s ++ rest = threeDouble ++
      ((if '\n' ∈ s then ['\n'] else []) ++ (escapeLong 0 s ++ (threeDouble ++ rest))) := by
    rw [← longOpening_append]
    simp [renderStringAs]
  have hopening := dropFirstLineEnd_opening (s := s) fun h => keepsFirst_escapeLong h rest
  rw [htext, ← longBasicBody?_escapeLong (Nat.zero_le 2) s after]
  exact congrArg (longBasicBody? .nothing) hopening

theorem string?_longLiteral {s : List Char} (bare : ∀ c ∈ s, isControl c = false)
    (runs : ¬ ['\'', '\'', '\''] <:+: s) {rest : List Char} (after : NotAhead '\'' rest) :
    string? (renderStringAs .longLiteral s ++ rest) = some (s, rest) := by
  have htext : renderStringAs .longLiteral s ++ rest = threeSingle ++
      ((if '\n' ∈ s then ['\n'] else []) ++ (s ++ (threeSingle ++ rest))) := by
    rw [← longOpening_append]
    simp [renderStringAs]
  have hkeeps (hnewline : '\n' ∉ s) : KeepsFirst (s ++ (threeSingle ++ rest)) := by
    cases s with
    | nil => exact ⟨nofun, nofun⟩
    | cons c s =>
        exact keepsFirst_of_bare (bare c List.mem_cons_self)
          (fun h => hnewline (h ▸ List.mem_cons_self)) _
  rw [htext, ← longLiteralBody?_append bare runs after]
  exact congrArg longLiteralBody? (dropFirstLineEnd_opening hkeeps)

/-- **Every string is read back** if no quote stands right after it. -/
theorem string?_renderString (s : String) {rest : List Char} (double : NotAhead '"' rest)
    (single : NotAhead '\'' rest) : string? (renderString s ++ rest) = some (s.toList, rest) := by
  unfold renderString
  generalize s.toList = cs
  unfold StringForm.choose
  split
  · split
    · exact string?_longBasic cs double
    · exact string?_basic cs rest double
  · next hcontrol =>
      have hbare : ∀ c ∈ cs, isControl c = false := by simpa using hcontrol
      split
      · exact string?_basic cs rest double
      · next hescapes =>
          split
          · next hliteral =>
              refine string?_literal ?_ (fun c hc => ⟨hbare c hc, ?_, ?_⟩) rest
              · rintro rfl
                exact hescapes ⟨nofun, nofun, nofun⟩
              · rintro rfl
                exact hliteral.2 hc
              · rintro rfl
                exact hliteral.1 hc
          · split
            · exact string?_longBasic cs double
            · split
              · next hruns => exact string?_longLiteral hbare (not_three_of_longestRun hruns) single
              · split
                · exact string?_longBasic cs double
                · exact string?_basic cs rest double

end ScriptSessions.Toml
