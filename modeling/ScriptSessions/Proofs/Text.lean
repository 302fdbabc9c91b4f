import ScriptSessions.Text.Blank
import ScriptSessions.Text.Search

set_option autoImplicit false

/-! # Words of a text, texts in a text, and digits

The words of a text split at a blank (`Text.words_append_blank`), and everything else about them
follows: the words are the ones of the normal form again (`Text.words_normalizeBlanks`), so
normalizing blanks twice is normalizing them once.

A text is found at its first occurrence. If its first character does not come again in it, then two
occurrences cannot overlap, so an occurrence in a text that is put together of several parts lies in
one of them or begins at a seam (`Text.prefix_of_prefix_append`).

A number is written in decimal digits, without leading zeros (`Text.eq_zero_of_toDigits`).
-/

namespace ScriptSessions.Text

/-! ## Words -/

/-- The words are the pieces between blanks that are not empty. -/
theorem words_eq (cs : List Char) : words cs = (cs.splitOnP isBlank).filter (· ≠ []) := by
  induction cs with
  | nil => rfl
  | cons c rest ih =>
      unfold words
      rw [List.splitOnP_cons_eq_if_modifyHead]
      by_cases hc : isBlank c = true
      · rw [if_pos hc, if_pos hc, ih, List.filter_cons_of_neg (by simp)]
      · rw [if_neg hc, if_neg hc, ih]
        cases rest with
        | nil => rfl
        | cons d more =>
            rw [List.splitOnP_cons_eq_if_modifyHead]
            by_cases hd : isBlank d = true
            · -- the character is a word of its own
              rw [if_pos hd, List.filter_cons_of_neg (by simp), List.modifyHead_cons,
                List.filter_cons_of_pos (by simp)]
              cases (more.splitOnP isBlank).filter (· ≠ []) with
              | nil => rfl
              | cons w ws => exact if_pos hd
            · rw [if_neg hd]
              cases hsplit : more.splitOnP isBlank with
              | nil => exact absurd hsplit (List.splitOnP_ne_nil _ _)
              | cons piece pieces => simp [hd]

/-- **Words split at a blank.** -/
theorem words_append_blank {c : Char} (hc : isBlank c = true) (front back : List Char) :
    words (front ++ c :: back) = words front ++ words back := by
  rw [words_eq, words_eq, words_eq, List.splitOnP_append_cons front back hc, List.filter_append]

/-- Whether a list of characters can be a word. -/
structure IsWord (w : List Char) : Prop where
  ne_nil : w ≠ []
  solid : ∀ c ∈ w, isBlank c = false

theorem words_of_isWord {w : List Char} (h : IsWord w) : words w = [w] := by
  have hsplit : w.splitOnP isBlank = [w] :=
    List.splitOnP_eq_singleton fun c hc => by simp [h.solid c hc]
  rw [words_eq, hsplit, List.filter_cons_of_pos (by simpa using h.ne_nil), List.filter_nil]

theorem isBlank_of_mem_splitOnP {cs piece : List Char} (h : piece ∈ cs.splitOnP isBlank) :
    ∀ c ∈ piece, isBlank c = false := by
  induction cs generalizing piece with
  | nil =>
      rw [List.splitOnP_nil, List.mem_singleton] at h
      rw [h]
      exact nofun
  | cons c rest ih =>
      rw [List.splitOnP_cons_eq_if_modifyHead] at h
      by_cases hc : isBlank c = true
      · rw [if_pos hc] at h
        rcases List.mem_cons.mp h with rfl | hrest
        · exact nofun
        · exact ih hrest
      · rw [if_neg hc] at h
        cases hsplit : rest.splitOnP isBlank with
        | nil => exact absurd hsplit (List.splitOnP_ne_nil _ _)
        | cons first pieces =>
            rw [hsplit, List.modifyHead_cons] at h
            rw [hsplit] at ih
            rcases List.mem_cons.mp h with rfl | hrest
            · intro d hd
              rcases List.mem_cons.mp hd with rfl | hfirst
              · exact Bool.eq_false_iff.mpr hc
              · exact ih List.mem_cons_self d hfirst
            · exact ih (List.mem_cons_of_mem first hrest)

theorem isWord_of_mem_words {cs w : List Char} (h : w ∈ words cs) : IsWord w := by
  rw [words_eq] at h
  obtain ⟨hmem, hne⟩ := List.mem_filter.mp h
  exact ⟨by simpa using hne, isBlank_of_mem_splitOnP hmem⟩

/-- Words with one space between neighbours are read off as they are. -/
theorem words_intercalate {ws : List (List Char)} (h : ∀ w ∈ ws, IsWord w) :
    words ([' '].intercalate ws) = ws := by
  induction ws with
  | nil => rfl
  | cons w rest ih =>
      have hword := words_of_isWord (h w List.mem_cons_self)
      have hrest := ih fun v hv => h v (List.mem_cons_of_mem w hv)
      cases rest with
      | nil => rw [List.intercalate_singleton, hword]
      | cons v more =>
          rw [List.intercalate_cons_cons, List.append_assoc, List.singleton_append,
            words_append_blank (by decide), hword, hrest]
          rfl

theorem words_normalizeBlanks (cs : List Char) : words (normalizeBlanks cs) = words cs :=
  words_intercalate fun _ => isWord_of_mem_words

/-- Normalizing blanks twice is normalizing them once. -/
theorem normalizeBlanks_normalizeBlanks (cs : List Char) :
    normalizeBlanks (normalizeBlanks cs) = normalizeBlanks cs := by
  rw [normalizeBlanks, words_normalizeBlanks]
  rfl

/-! ## The first occurrence -/

theorem dropPrefix?_eq_some_iff {pat s after : List Char} :
    dropPrefix? pat s = some after ↔ s = pat ++ after := by
  constructor
  · exact eq_append_of_dropPrefix?
  · rintro rfl
    exact dropPrefix?_append pat after

theorem dropPrefix?_eq_none_iff {pat s : List Char} : dropPrefix? pat s = none ↔ ¬ pat <+: s := by
  rw [Option.eq_none_iff_forall_ne_some]
  constructor
  · rintro h ⟨after, hafter⟩
    exact h after (dropPrefix?_eq_some_iff.mpr hafter.symm)
  · intro h after hafter
    exact h ⟨after, (dropPrefix?_eq_some_iff.mp hafter).symm⟩

/-- A text that is found is not found any earlier. -/
theorem not_infix_of_splitAtFirst? {pat s before after : List Char} (hpat : pat ≠ [])
    (h : splitAtFirst? pat s = some (before, after)) : ¬ pat <:+: before := by
  induction s generalizing before with
  | nil =>
      rw [splitAtFirst?, if_neg hpat] at h
      cases h
  | cons c rest ih =>
      rw [splitAtFirst?] at h
      split at h
      · cases h
        rwa [List.infix_nil]
      · next hnone =>
          obtain ⟨⟨before', after'⟩, hrest, heq⟩ := Option.map_eq_some_iff.mp h
          cases heq
          rw [List.infix_cons_iff, not_or]
          refine ⟨fun hprefix => dropPrefix?_eq_none_iff.mp hnone ?_, ih hrest⟩
          rw [eq_append_of_splitAtFirst? hrest, List.append_assoc]
          exact hprefix.trans (List.prefix_append (c :: before') _)

/-- A text is not found if it is nowhere in the other one. -/
theorem splitAtFirst?_eq_none_iff {pat s : List Char} (hpat : pat ≠ []) :
    splitAtFirst? pat s = none ↔ ¬ pat <:+: s := by
  induction s with
  | nil => simp [splitAtFirst?, hpat]
  | cons c rest ih =>
      rw [splitAtFirst?, List.infix_cons_iff, not_or, ← dropPrefix?_eq_none_iff, ← ih]
      cases dropPrefix? pat (c :: rest) <;> simp

/-- What stands behind the first occurrence holds all that stands behind any other one. -/
theorem suffix_of_splitAtFirst? {pat s before after front back : List Char}
    (h : splitAtFirst? pat s = some (before, after)) (hs : s = front ++ pat ++ back) :
    back <:+ after := by
  induction s generalizing before front with
  | nil =>
      rw [(List.append_eq_nil_iff.mp hs.symm).2]
      exact List.nil_suffix
  | cons c rest ih =>
      rw [splitAtFirst?] at h
      split at h
      · next hdrop =>
          -- both stand at the end of the text, and the other one begins no earlier
          cases h
          have hwhole := eq_append_of_dropPrefix? hdrop
          refine List.suffix_of_suffix_length_le ⟨_, hs.symm⟩ ⟨pat, hwhole.symm⟩ ?_
          have hlength := congrArg List.length (hwhole.symm.trans hs)
          simp only [List.length_append] at hlength
          omega
      · next hnone =>
          obtain ⟨⟨before', after'⟩, hrest, heq⟩ := Option.map_eq_some_iff.mp h
          cases heq
          cases front with
          | nil =>
              rw [hs, List.nil_append] at hnone
              exact absurd (List.prefix_append pat back) (dropPrefix?_eq_none_iff.mp hnone)
          | cons d front => exact ih hrest (List.cons.inj hs).2

section

variable {p : Char} {ps : List Char}

/-- A text whose first character does not come again in it does not straddle the seam of two texts
of which the second one begins with that character. -/
theorem prefix_of_prefix_append (once : p ∉ ps) {front back : List Char} (hfront : front ≠ [])
    (hback : ∀ c ∈ back.head?, c = p) (h : p :: ps <+: front ++ back) : p :: ps <+: front := by
  rcases List.prefix_or_prefix_of_prefix h (List.prefix_append front back) with hpre | hpre
  · exact hpre
  · obtain ⟨rest, hrest⟩ := hpre
    cases rest with
    | nil => exact ⟨[], by rw [List.append_nil, ← hrest, List.append_nil]⟩
    | cons d rest =>
        -- what is beyond the seam begins with a later character of the pattern
        rw [← hrest, List.prefix_append_right_inj] at h
        obtain ⟨tail, htail⟩ := h
        have hd : d = p := hback d (by rw [← htail]; rfl)
        obtain ⟨a, front', rfl⟩ := List.exists_cons_of_ne_nil hfront
        have hmem : d ∈ ps := by
          rw [← (List.cons.inj hrest).2]
          exact List.mem_append_right _ List.mem_cons_self
        exact absurd (hd ▸ hmem) once

/-- Where a text is found whose first character does not come again in it. -/
theorem splitAtFirst?_eq_some_iff (once : p ∉ ps) {s before after : List Char} :
    splitAtFirst? (p :: ps) s = some (before, after) ↔
      s = before ++ p :: ps ++ after ∧ ¬ p :: ps <:+: before := by
  constructor
  · intro h
    exact ⟨eq_append_of_splitAtFirst? h, not_infix_of_splitAtFirst? (List.cons_ne_nil p ps) h⟩
  · rintro ⟨rfl, hfirst⟩
    induction before with
    | nil =>
        rw [List.nil_append, List.cons_append, splitAtFirst?, ← List.cons_append,
          dropPrefix?_append]
    | cons c before ih =>
        rw [List.infix_cons_iff, not_or] at hfirst
        have hnone : dropPrefix? (p :: ps) (c :: before ++ (p :: ps ++ after)) = none := by
          rw [dropPrefix?_eq_none_iff]
          refine mt (prefix_of_prefix_append once (List.cons_ne_nil c before) ?_) hfirst.1
          rintro d hd
          exact (Option.some.inj hd).symm
        rw [List.append_assoc, List.cons_append, splitAtFirst?, ← List.cons_append, hnone,
          ← List.append_assoc, ih hfirst.2]
        rfl

end

/-! ## Numbers in digits -/

theorem isDigit_of_mem_toDigits {n : Nat} {c : Char} (h : c ∈ Nat.toDigits 10 n) :
    c.isDigit = true :=
  Nat.isDigit_of_mem_toDigits (by decide) (by decide) h

/-- The digits of a number begin with a zero only if the number is zero. -/
theorem eq_zero_of_toDigits {n : Nat} {ds : List Char} (h : Nat.toDigits 10 n = '0' :: ds) :
    n = 0 := by
  induction n using Nat.strongRecOn generalizing ds with
  | _ n ih =>
      by_cases hn : n < 10
      · have hds : ds = [] := by
          rw [Nat.toDigits_of_lt_base hn] at h
          exact (List.cons.inj h).2.symm
        rw [← @Nat.ofDigitChars_ten_toDigits n, h, hds]
        rfl
      · -- the first digit is that of a tenth of the number
        rw [Nat.toDigits_of_base_le (by decide) (by omega)] at h
        cases hfront : Nat.toDigits 10 (n / 10) with
        | nil => exact absurd hfront Nat.toDigits_ne_nil
        | cons c front =>
            rw [hfront] at h
            have htenth := ih (n / 10) (by omega) ((List.cons.inj h).1 ▸ hfront)
            omega

end ScriptSessions.Text
