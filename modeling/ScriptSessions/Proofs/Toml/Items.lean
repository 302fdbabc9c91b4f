import ScriptSessions.Proofs.Text
import ScriptSessions.Proofs.Toml.Strings
import ScriptSessions.Toml.Parser

set_option autoImplicit false

/-! # Items are read back

A setting stands for an item (`Setting.item`), and reading what is written for the setting gives
this item (`item?_render`). Settings stand at the end of their line, so a newline is all that comes
after them.

Numbers and truth values are runs, and the end of a run is found without knowing what it stands
for. Arrays are written in three ways: an empty one and one with a single element stand on their
line, and a longer one has its elements on lines of their own, with a comma after each.
-/

namespace ScriptSessions.Toml

/-! ## Numbers -/

/-- Digits alone are the digits of a run. -/
theorem digits?_of_forall {ds : List Char} (nonempty : ds ≠ [])
    (digit : ∀ c ∈ ds, c.isDigit = true) : digits? Char.isDigit ds = some ds := by
  induction ds with
  | nil => exact absurd rfl nonempty
  | cons c ds ih =>
      have hc := digit c List.mem_cons_self
      cases ds with
      | nil => simp [digits?, hc]
      | cons d ds =>
          have hrest := ih (List.cons_ne_nil d ds) fun e he => digit e (List.mem_cons_of_mem c he)
          have hd : d ≠ '_' := by
            rintro rfl
            exact absurd (digit '_' (List.mem_cons_of_mem c List.mem_cons_self)) (by decide)
          simp [digits?, hc, hd, hrest]

theorem decimal?_toDigits (n : Nat) : decimal? (Nat.toDigits 10 n) = some (Nat.toDigits 10 n) := by
  have hdigits := digits?_of_forall Nat.toDigits_ne_nil fun c (hc : c ∈ Nat.toDigits 10 n) =>
    Text.isDigit_of_mem_toDigits hc
  unfold decimal?
  rw [hdigits]
  split
  · next heq =>
      have hzero := Text.eq_zero_of_toDigits (Option.some.inj heq)
      subst hzero
      cases heq
  · rfl

theorem integer?_toDigits {n : Nat} (small : n < unsignedLimit) :
    integer? (Nat.toDigits 10 n) = some (n : Int) := by
  have hdigit : ∀ c ∈ Nat.toDigits 10 n, c.isDigit = true := fun _ =>
    Text.isDigit_of_mem_toDigits
  have hdecimal := decimal?_toDigits n
  have hvalue : ofDecimal (Nat.toDigits 10 n) = n := Nat.ofDigitChars_ten_toDigits
  generalize Nat.toDigits 10 n = ds at *
  have hread : decimalInteger? ds = some (n : Int) := by
    have hsign : splitSign ds = (false, ds) := by
      unfold splitSign
      split
      · exact absurd (hdigit _ List.mem_cons_self) (by decide)
      · exact absurd (hdigit _ List.mem_cons_self) (by decide)
      · rfl
    simp [decimalInteger?, hsign, hdecimal, hvalue]
  have hletter (c d : Char) (rest : List Char) (heq : ds = c :: d :: rest) : d.isDigit = true :=
    hdigit d (heq ▸ List.mem_cons_of_mem c List.mem_cons_self)
  unfold integer?
  split
  · exact absurd (hletter _ _ _ rfl) (by decide)
  · exact absurd (hletter _ _ _ rfl) (by decide)
  · exact absurd (hletter _ _ _ rfl) (by decide)
  · have hrange :
        (-(signedLimit : Int) ≤ (n : Int) && (n : Int) < (unsignedLimit : Int)) = true := by
      rw [Bool.and_eq_true, decide_eq_true_eq, decide_eq_true_eq]
      omega
    rw [hread, Option.filter_some, if_pos hrange]

/-! ## Runs -/

/-- A number is what its digits stand for. -/
theorem scalar?_toDigits {n : Nat} (small : n < unsignedLimit) :
    scalar? (Nat.toDigits 10 n) = some (.integer n) := by
  have hword (c : Char) (letter : c.isDigit = false) (rest : List Char) :
      Nat.toDigits 10 n ≠ c :: rest := by
    intro heq
    have hc : c ∈ Nat.toDigits 10 n := heq ▸ List.mem_cons_self
    rw [Text.isDigit_of_mem_toDigits hc] at letter
    cases letter
  have htrue : Nat.toDigits 10 n ≠ "true".toList := hword 't' rfl ['r', 'u', 'e']
  have hfalse : Nat.toDigits 10 n ≠ "false".toList := hword 'f' rfl ['a', 'l', 's', 'e']
  rw [scalar?, if_neg htrue, if_neg hfalse, integer?_toDigits small]

theorem scalar?_renderBool (b : Bool) : scalar? (renderBool b) = some (.bool b) := by
  cases b <;> rfl

/-- A run goes to the end of its line. -/
theorem takeRun_append {run : List Char} (h : ∀ c ∈ run, isRunChar c = true) (rest : List Char) :
    takeRun (run ++ '\n' :: rest) = (run, '\n' :: rest) := by
  simp only [takeRun, takeWhile_append_cons (a := '\n') h rfl rest,
    dropWhile_append_cons (a := '\n') h rfl rest]
  rfl

theorem item?_run {run : List Char} (nonempty : run ≠ []) (h : ∀ c ∈ run, isRunChar c = true)
    {item : Item} (value : scalar? run = some item) (fuel room : Nat) (rest : List Char) :
    item? (fuel + 1) room (run ++ '\n' :: rest) = some (item, '\n' :: rest) := by
  have hfirst (d : Char) (hd : isRunChar d = false) (t : List Char)
      (heq : run ++ '\n' :: rest = d :: t) : False := by
    obtain ⟨c, run', rfl⟩ := List.exists_cons_of_ne_nil nonempty
    obtain ⟨rfl, -⟩ := List.cons.inj heq
    rw [h c List.mem_cons_self] at hd
    cases hd
  rw [item?, takeRun_append h]
  · simp only [value]
    rfl
  · exact hfirst '[' rfl
  · exact hfirst '{' rfl
  · exact hfirst '"' rfl
  · exact hfirst '\'' rfl

theorem item?_renderBool (b : Bool) (fuel room : Nat) (rest : List Char) :
    item? (fuel + 1) room (renderBool b ++ '\n' :: rest) = some (.bool b, '\n' :: rest) := by
  refine item?_run ?_ ?_ (scalar?_renderBool b) fuel room rest
  · cases b <;> exact nofun
  · cases b <;> exact List.all_eq_true.mp rfl

theorem item?_toDigits {n : Nat} (small : n < unsignedLimit) (fuel room : Nat)
    (rest : List Char) :
    item? (fuel + 1) room (Nat.toDigits 10 n ++ '\n' :: rest)
      = some (.integer n, '\n' :: rest) := by
  refine item?_run Nat.toDigits_ne_nil (fun c hc => ?_) (scalar?_toDigits small) fuel room rest
  have hdigit := Text.isDigit_of_mem_toDigits hc
  simp [isRunChar, Char.isAlphanum, hdigit]

/-! ## Strings and arrays -/

/-- A string begins with a quote. -/
theorem renderString_eq_cons (s : String) :
    ∃ quote text, renderString s = quote :: text ∧ (quote = '"' ∨ quote = '\'') := by
  unfold renderString
  cases StringForm.choose s.toList with
  | basic => exact ⟨'"', _, rfl, .inl rfl⟩
  | literal => exact ⟨'\'', _, rfl, .inr rfl⟩
  | longBasic =>
      rw [renderStringAs, List.append_assoc, longOpening_append]
      exact ⟨'"', _, rfl, .inl rfl⟩
  | longLiteral =>
      rw [renderStringAs, List.append_assoc, longOpening_append]
      exact ⟨'\'', _, rfl, .inr rfl⟩

theorem item?_renderString (s : String) (fuel room : Nat) {rest : List Char}
    (double : NotAhead '"' rest) (single : NotAhead '\'' rest) :
    item? (fuel + 1) room (renderString s ++ rest) = some (.string s, rest) := by
  have hread := string?_renderString s double single
  obtain ⟨quote, text, htext, hquote⟩ := renderString_eq_cons s
  rw [htext, List.cons_append] at hread ⊢
  rcases hquote with rfl | rfl <;> simp [item?, hread]

/-- Nothing is skipped before a string. -/
theorem skipGap?_renderString (s : String) (rest : List Char) :
    skipGap? false (renderString s ++ rest) = some (renderString s ++ rest) := by
  obtain ⟨quote, text, htext, hquote⟩ := renderString_eq_cons s
  rw [htext, List.cons_append]
  rcases hquote with rfl | rfl <;> simp [skipGap?, isLineSpace, endsLine]

/-- The spaces before an element are skipped. -/
theorem skipGap?_renderElement (s : String) (rest : List Char) :
    skipGap? false ('\n' :: (renderElement s ++ rest))
      = some (renderString s ++ (',' :: '\n' :: rest)) := by
  have htext : '\n' :: (renderElement s ++ rest)
      = '\n' :: ' ' :: ' ' :: ' ' :: ' ' :: (renderString s ++ (',' :: '\n' :: rest)) := by
    simp [renderElement, List.replicate]
  rw [htext, ← skipGap?_renderString s (',' :: '\n' :: rest)]
  rfl

/-- An element with a comma after it, and more elements. -/
theorem items?_of_more {fuel room : Nat} {s after more : List Char} {item : Item} {c : Char}
    (first : item? fuel room s = some (item, ',' :: after))
    (gap : skipGap? false after = some (c :: more)) (other : c ≠ ']') :
    items? (fuel + 1) room s
      = (items? fuel room (c :: more)).map fun p => (item :: p.1, p.2) := by
  have hcomma : skipGap? false (',' :: after) = some (',' :: after) := by
    simp [skipGap?, isLineSpace, endsLine]
  rw [items?, first]
  simp only [hcomma, gap]
  split
  · next heq => cases heq
  · next heq => exact absurd (List.cons.inj (Option.some.inj heq)).1 other
  · next heq => rw [Option.some.inj heq]

/-- The last element, with a comma after it. -/
theorem items?_of_comma {fuel room : Nat} {s after rest : List Char} {item : Item}
    (last : item? fuel room s = some (item, ',' :: after))
    (gap : skipGap? false after = some (']' :: rest)) :
    items? (fuel + 1) room s = some ([item], rest) := by
  have hcomma : skipGap? false (',' :: after) = some (',' :: after) := by
    simp [skipGap?, isLineSpace, endsLine]
  rw [items?, last]
  simp only [hcomma, gap]

/-- The elements of an array that goes over several lines, from the first string on. -/
theorem items?_renderElements (s : String) (ss : List String) (fuel room : Nat)
    (rest : List Char) : items? (fuel + ss.length + 2) room
      (renderString s ++ (',' :: '\n' :: (ss.flatMap renderElement ++ ']' :: rest)))
        = some ((s :: ss).map .string, rest) := by
  -- an element is read together with the gap after it, so the next one begins with its string
  induction ss generalizing s with
  | nil => exact items?_of_comma (item?_renderString s _ room nofun nofun) rfl
  | cons t ss ih =>
      have hgap := skipGap?_renderElement t (ss.flatMap renderElement ++ ']' :: rest)
      rw [← List.append_assoc, ← List.flatMap_cons] at hgap
      obtain ⟨quote, text, htext, hquote⟩ := renderString_eq_cons t
      have hrest := ih t
      rw [htext, List.cons_append] at hgap hrest
      have hother : quote ≠ ']' := by
        rcases hquote with rfl | rfl <;> decide
      have hread := items?_of_more
        (item?_renderString s (fuel + ss.length + 1) room nofun nofun) hgap hother
      exact hread.trans (by rw [hrest]; rfl)

/-- An array with at least one element. -/
theorem item?_of_array {fuel room : Nat} {text more rest : List Char} {items : List Item}
    {c : Char} (gap : skipGap? false text = some (c :: more)) (other : c ≠ ']')
    (read : items? fuel room (c :: more) = some (items, rest)) :
    item? (fuel + 1) (room + 1) ('[' :: text) = some (.array items, rest) := by
  rw [item?]
  simp only [gap]
  split
  · next heq => cases heq
  · next heq => exact absurd (List.cons.inj (Option.some.inj heq)).1 other
  · next heq =>
      rw [← Option.some.inj heq, read]
      rfl

theorem item?_renderStrings (ss : List String) (fuel room : Nat) (rest : List Char) :
    item? (fuel + ss.length + 3) (room + 1) (renderStrings ss ++ '\n' :: rest)
      = some (.array (ss.map .string), '\n' :: rest) := by
  have hother {quote : Char} (hquote : quote = '"' ∨ quote = '\'') : quote ≠ ']' := by
    rcases hquote with rfl | rfl <;> decide
  match ss with
  | [] => rfl
  | [s] =>
      obtain ⟨quote, text, htext, hquote⟩ := renderString_eq_cons s
      have hgap := skipGap?_renderString s (']' :: '\n' :: rest)
      have hitem : item? (fuel + 2) room (renderString s ++ (']' :: '\n' :: rest))
          = some (.string s, ']' :: '\n' :: rest) :=
        item?_renderString s (fuel + 1) room nofun nofun
      have hlast : items? (fuel + 3) room (renderString s ++ (']' :: '\n' :: rest))
          = some ([.string s], '\n' :: rest) := by
        rw [items?, hitem]
        rfl
      have hline : renderStrings [s] ++ '\n' :: rest
          = '[' :: (renderString s ++ (']' :: '\n' :: rest)) := by
        simp [renderStrings]
      rw [hline]
      rw [htext, List.cons_append] at hgap hlast ⊢
      exact item?_of_array hgap (hother hquote) hlast
  | s :: t :: ss =>
      obtain ⟨quote, text, htext, hquote⟩ := renderString_eq_cons s
      have hgap := skipGap?_renderElement s ((t :: ss).flatMap renderElement ++ ']' :: '\n' :: rest)
      have hread := items?_renderElements s (t :: ss) (fuel + 1) room ('\n' :: rest)
      have hlines : renderStrings (s :: t :: ss) ++ '\n' :: rest = '[' :: '\n' ::
          (renderElement s ++ ((t :: ss).flatMap renderElement ++ ']' :: '\n' :: rest)) := by
        simp [renderStrings]
      have hfuel : fuel + (s :: t :: ss).length + 3 = fuel + 1 + (t :: ss).length + 2 + 1 := by
        simp only [List.length_cons]
        omega
      rw [hlines, hfuel]
      rw [htext, List.cons_append] at hgap hread
      exact item?_of_array hgap (hother hquote) hread

/-! ## Settings -/

/-- The item that a setting stands for. -/
def Setting.item : Setting → Item
  | .string s => .string s
  | .strings ss => .array (ss.map .string)
  | .bool b => .bool b
  | .natural n => .integer n

/-- Whether a number is small enough to be read. -/
def Setting.Fits : Setting → Prop
  | .natural n => n < unsignedLimit
  | .string _ | .strings _ | .bool _ => True

/-- Every string of an array takes up some of the text. -/
theorem length_le_renderStrings (ss : List String) : ss.length + 2 ≤ (renderStrings ss).length := by
  have hstring (s : String) : 1 ≤ (renderString s).length := by
    obtain ⟨quote, text, htext, -⟩ := renderString_eq_cons s
    simp [htext]
  have helements (ss : List String) : ss.length ≤ (ss.flatMap renderElement).length := by
    induction ss with
    | nil => exact Nat.le_refl 0
    | cons s ss ih =>
        have hs := hstring s
        simp only [List.flatMap_cons, List.length_append, List.length_cons, renderElement]
        omega
  match ss with
  | [] => exact Nat.le_refl 2
  | [s] =>
      have hs := hstring s
      simp only [renderStrings, List.length_cons, List.length_append, List.length_nil]
      omega
  | s :: t :: ss =>
      have hss := helements (s :: t :: ss)
      simp only [renderStrings, List.length_cons, List.length_append, List.length_nil] at hss ⊢
      omega

/-- **Every setting is read back** at the end of its line. -/
theorem item?_render {v : Setting} (fits : v.Fits) {fuel : Nat}
    (enough : v.render.length + 1 ≤ fuel) (rest : List Char) :
    item? fuel nestingLimit (v.render ++ '\n' :: rest) = some (v.item, '\n' :: rest) := by
  cases v with
  | string s =>
      obtain ⟨fuel, rfl⟩ := Nat.exists_eq_add_of_le' (Nat.le_trans (Nat.le_add_left 1 _) enough)
      exact item?_renderString s fuel nestingLimit nofun nofun
  | strings ss =>
      have hlength := length_le_renderStrings ss
      obtain ⟨more, rfl⟩ : ∃ more, fuel = more + ss.length + 3 :=
        ⟨fuel - ss.length - 3, by simp only [Setting.render] at enough; omega⟩
      exact item?_renderStrings ss more 79 rest
  | bool b =>
      obtain ⟨fuel, rfl⟩ := Nat.exists_eq_add_of_le' (Nat.le_trans (Nat.le_add_left 1 _) enough)
      exact item?_renderBool b fuel nestingLimit rest
  | natural n =>
      obtain ⟨fuel, rfl⟩ := Nat.exists_eq_add_of_le' (Nat.le_trans (Nat.le_add_left 1 _) enough)
      exact item?_toDigits fits fuel nestingLimit rest

end ScriptSessions.Toml
