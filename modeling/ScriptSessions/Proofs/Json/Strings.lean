import Mathlib.Tactic.Ring
import ScriptSessions.Json.Printer
import ScriptSessions.Json.Token
import ScriptSessions.Proofs.Lists

set_option autoImplicit false

/-! # Strings of JSON are read back

A character is written in one of three ways: for itself, by a backslash and a letter, or by the
number of its unit. In each of them it is read as a single piece, and this piece spells the
character whatever stands after it (`exists_piece`), because a control is no half of a surrogate
pair. So the body of a string is read piece by piece, and the pieces spell the string.
-/

namespace ScriptSessions

/-! ## Hexadecimal digits -/

namespace Text

theorem hexValues?_map_hexDigit (ds : List (Fin 16)) : hexValues? (ds.map hexDigit) = some ds :=
  mapM_map_eq_self fun d _ => hexValue?_hexDigit d

/-- The digits of a number denote what is left of it in their places. -/
theorem ofHexDigits_toHexDigits (width n : Nat) :
    ofHexDigits (toHexDigits width n) = n % 16 ^ width := by
  have hstep (k : Nat) : toHexDigits (k + 1) n
      = Fin.ofNat 16 (n >>> (4 * k)) :: toHexDigits k n := by
    simp [toHexDigits, List.range_succ]
  -- leading digits are worth the more the more digits follow
  have hfrom (k m : Nat) : (toHexDigits k n).foldl (fun v d => 16 * v + d.val) m
      = m * 16 ^ k + n % 16 ^ k := by
    induction k generalizing m with
    | zero => simp [toHexDigits, Nat.mod_one]
    | succ k ih =>
        have hshift : n >>> (4 * k) = n / 16 ^ k := by
          rw [Nat.shiftRight_eq_div_pow, Nat.pow_mul]
        rw [hstep, List.foldl_cons, ih, hshift]
        simp only [Fin.ofNat]
        rw [Nat.pow_succ, Nat.mod_mul]
        ring
  rw [ofHexDigits, hfrom, Nat.zero_mul, Nat.zero_add]

end Text

namespace Json

open Text

/-! ## Pieces -/

theorem stringBody?_short {e c : Char} (h : shortEscape? e = some c) (rest : List Char) :
    stringBody? ('\\' :: e :: rest) = (stringBody? rest).map fun p => (.char c :: p.1, p.2) := by
  have hu : e ≠ 'u' := by
    rintro rfl
    cases h
  rw [stringBody?, h]
  · cases stringBody? rest <;> rfl
  · exact fun _ _ _ _ _ heq _ => hu heq

theorem stringBody?_unit (n : Nat) (rest : List Char) :
    stringBody? ('\\' :: 'u' :: (toHexDigits 4 n).map hexDigit ++ rest)
      = (stringBody? rest).map fun p => (.unit (n % 65536) :: p.1, p.2) := by
  have hvalues := hexValues?_map_hexDigit (toHexDigits 4 n)
  have hnumber : ofHexDigits (toHexDigits 4 n) = n % 65536 := ofHexDigits_toHexDigits 4 n
  obtain ⟨d₃, d₂, d₁, d₀, hdigits⟩ : ∃ d₃ d₂ d₁ d₀, toHexDigits 4 n = [d₃, d₂, d₁, d₀] :=
    ⟨_, _, _, _, rfl⟩
  rw [hdigits] at hvalues hnumber ⊢
  simp only [List.map_cons, List.map_nil, List.cons_append, List.nil_append] at hvalues ⊢
  rw [stringBody?, hvalues, ← hnumber]
  cases stringBody? rest <;> rfl

theorem stringBody?_plain {c : Char} (quote : c ≠ '"') (backslash : c ≠ '\\')
    (printable : ¬ c.toNat < 0x20) (rest : List Char) :
    stringBody? (c :: rest) = (stringBody? rest).map fun p => (.char c :: p.1, p.2) := by
  rw [stringBody?, if_neg printable]
  · exact quote
  · exact fun _ _ _ _ _ heq _ => backslash heq
  · exact fun _ _ heq _ => backslash heq

/-- A unit that is no half of a pair spells a character of its own. -/
theorem spell?_unit {n : Nat} (trailing : isTrailing n = false) (leading : isLeading n = false)
    (pieces : List Piece) :
    spell? (.unit n :: pieces) = (spell? pieces).map (Char.ofNat n :: ·) := by
  rw [spell?.eq_def (.unit n :: pieces)]
  simp only [trailing, leading, Bool.false_eq_true, if_false]

/-- A written character is read as one piece, and this piece spells the character. -/
theorem exists_piece (c : Char) : ∃ piece,
    (∀ rest, stringBody? (escapeChar c ++ rest)
      = (stringBody? rest).map fun p => (piece :: p.1, p.2)) ∧
    ∀ pieces, spell? (piece :: pieces) = (spell? pieces).map (c :: ·) := by
  have hshort (e d : Char) (h : shortEscape? e = some d) : ∃ piece,
      (∀ rest, stringBody? (['\\', e] ++ rest)
        = (stringBody? rest).map fun p => (piece :: p.1, p.2)) ∧
      ∀ pieces, spell? (piece :: pieces) = (spell? pieces).map (d :: ·) :=
    ⟨.char d, stringBody?_short h, fun pieces => by rw [spell?]⟩
  unfold escapeChar
  split
  · exact hshort '"' _ rfl
  · exact hshort '\\' _ rfl
  · exact hshort 'b' _ rfl
  · exact hshort 'f' _ rfl
  · exact hshort 'n' _ rfl
  · exact hshort 'r' _ rfl
  · exact hshort 't' _ rfl
  · next quote backslash _ _ _ _ _ =>
      split
      · next control =>
          refine ⟨.unit c.toNat, fun rest => ?_, fun pieces => ?_⟩
          · rw [List.append_assoc, List.cons_append, List.cons_append, List.nil_append]
            have hunit := stringBody?_unit c.toNat rest
            rw [Nat.mod_eq_of_lt (by omega)] at hunit
            exact hunit
          · -- a control is far below the surrogates
            have htrailing : isTrailing c.toNat = false := by
              simp only [isTrailing, Bool.and_eq_false_iff, decide_eq_false_iff_not]
              omega
            have hleading : isLeading c.toNat = false := by
              simp only [isLeading, Bool.and_eq_false_iff, decide_eq_false_iff_not]
              omega
            rw [spell?_unit htrailing hleading, Char.ofNat_toNat]
      · next printable =>
          exact ⟨.char c, stringBody?_plain quote backslash printable, fun pieces => by rw [spell?]⟩

/-! ## Strings -/

/-- What is written for a text is read up to the closing quote, and spells the text. -/
theorem exists_pieces (cs rest : List Char) : ∃ pieces,
    stringBody? (cs.flatMap escapeChar ++ '"' :: rest) = some (pieces, rest) ∧
      spell? pieces = some cs := by
  induction cs with
  | nil => exact ⟨[], by simp [stringBody?], rfl⟩
  | cons c cs ih =>
      obtain ⟨pieces, hbody, hspell⟩ := ih
      obtain ⟨piece, hpiece, hchar⟩ := exists_piece c
      refine ⟨piece :: pieces, ?_, ?_⟩
      · rw [List.flatMap_cons, List.append_assoc, hpiece, hbody]
        rfl
      · rw [hchar, hspell]
        rfl

/-- A written string is one token, which holds the string. -/
theorem next?_renderString (s : String) (rest : List Char) :
    Token.next? (renderString s ++ rest) = some (.string (some s), rest) := by
  obtain ⟨pieces, hbody, hspell⟩ := exists_pieces s.toList rest
  have hread : Token.next? (renderString s ++ rest)
      = (stringBody? (s.toList.flatMap escapeChar ++ '"' :: rest)).map
          fun p => (Token.ofPieces p.1, p.2) := by
    simp [renderString, Token.next?]
  rw [hread, hbody, Option.map_some, Token.ofPieces, hspell, Option.map_some, String.ofList_toList]

end Json

end ScriptSessions
