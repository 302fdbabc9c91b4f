import ScriptSessions.Proofs.Json.Strings
import ScriptSessions.Proofs.Text

set_option autoImplicit false

/-! # The tokens of what is written

A value has a list of tokens (`Json.tokens`), and cutting what is written for the value gives these
tokens (`Json.scan_render`). The layout is lost on the way, and so is what cannot be written.

The scanner looks at a text a bounded number of times. `Json.Scans` therefore says how many looks a
part of a text takes: at most one for each of its characters. Parts are then put together without
any arithmetic on the bound (`Scans.append`). A number has no mark at its end, so it matters what
comes after a value; after every value there is the end of the text, a comma or a new line
(`Json.endsNumber`).
-/

namespace ScriptSessions.Json

open Text Token

/-! ## The tokens of a value -/

mutual

/-- The tokens of a value as it is written. What cannot be kept of a value is the token `null`. -/
def tokens : Json → List Token
  | .null | .otherNumber | .brokenString => [.null]
  | .bool b => [.bool b]
  | .natural n => [.natural n]
  | .string s => [.string (some s)]
  | .array [] => [.openBracket, .closeBracket]
  | .array (item :: items) => .openBracket :: tokens item ++ itemTokens items ++ [.closeBracket]
  | .object [] => [.openBrace, .closeBrace]
  | .object (member :: members) =>
    .openBrace :: memberTokens member ++ membersTokens members ++ [.closeBrace]

/-- The tokens of further items of an array. -/
def itemTokens : List Json → List Token
  | [] => []
  | item :: items => .comma :: tokens item ++ itemTokens items

/-- The tokens of a member of an object. -/
def memberTokens : Option String × Json → List Token
  | (name, j) => [.string (some (name.getD "")), .colon] ++ tokens j

/-- The tokens of further members of an object. -/
def membersTokens : List (Option String × Json) → List Token
  | [] => []
  | member :: members => .comma :: memberTokens member ++ membersTokens members

end

/-! ## Parts of a text -/

/-- The part `cs` of a text, before `rest`, is cut into the tokens `ts`. It takes the scanner at
most one look for each character. -/
def Scans (cs : List Char) (ts : List Token) (rest : List Char) : Prop :=
  ∃ looks ≤ cs.length, ∀ fuel,
    scanWithin (looks + fuel) (cs ++ rest) = (scanWithin fuel rest).map (ts ++ ·)

variable {cs cs' rest : List Char} {ts ts' : List Token}

theorem scans_nil (rest : List Char) : Scans [] [] rest :=
  ⟨0, Nat.le_refl 0, fun fuel => by simp⟩

theorem Scans.append (h : Scans cs ts (cs' ++ rest)) (h' : Scans cs' ts' rest) :
    Scans (cs ++ cs') (ts ++ ts') rest := by
  obtain ⟨looks, hle, hscan⟩ := h
  obtain ⟨looks', hle', hscan'⟩ := h'
  refine ⟨looks + looks', by rw [List.length_append]; omega, fun fuel => ?_⟩
  rw [List.append_assoc, Nat.add_assoc, hscan, hscan', Option.map_map]
  simp [Function.comp_def]

/-- A text that is cut to its end has the tokens of its only part. -/
theorem Scans.scan (h : Scans cs ts []) : scan cs = some ts := by
  obtain ⟨looks, hle, hscan⟩ := h
  have hall := hscan (cs.length - looks)
  rw [List.append_nil, Nat.add_sub_cancel' hle, scanWithin, Option.map_some, List.append_nil]
    at hall
  exact hall

/-- A token that is found where a part begins is cut off in one look. -/
theorem scans_token {c : Char} {t : Token} (space : isSpace c = false)
    (h : next? (c :: cs ++ rest) = some (t, rest)) : Scans (c :: cs) [t] rest := by
  refine ⟨1, by simp, fun fuel => ?_⟩
  rw [List.cons_append] at h
  rw [Nat.add_comm, List.cons_append, scanWithin, space, h]
  rfl

/-- Space is no token. -/
theorem scans_space (space : ∀ c ∈ cs, isSpace c = true) (rest : List Char) :
    Scans cs [] rest := by
  induction cs with
  | nil => exact scans_nil rest
  | cons c cs ih =>
      obtain ⟨looks, hle, hscan⟩ := ih fun d hd => space d (List.mem_cons_of_mem c hd)
      refine ⟨looks + 1, by simpa using hle, fun fuel => ?_⟩
      rw [Nat.add_right_comm, List.cons_append, scanWithin, if_pos (space c List.mem_cons_self),
        hscan]

/-- A single character that is a token of its own. -/
theorem Scans.mark {c : Char} {t : Token} (h : Scans cs ts rest) (space : isSpace c = false)
    (mark : ∀ s, next? (c :: s) = some (t, s)) : Scans (c :: cs) (t :: ts) rest := by
  have hc : Scans [c] [t] (cs ++ rest) := scans_token space (mark (cs ++ rest))
  exact hc.append h

theorem scans_newLine (depth : Nat) (rest : List Char) : Scans (newLine depth) [] rest := by
  refine scans_space (fun c hc => ?_) rest
  rcases List.mem_cons.mp hc with rfl | hspace
  · rfl
  · rw [List.eq_of_mem_replicate hspace]
    rfl

theorem scans_renderString (s : String) (rest : List Char) :
    Scans (renderString s) [.string (some s)] rest :=
  scans_token rfl (next?_renderString s rest)

theorem isSpace_iff {c : Char} : isSpace c = true ↔ c = ' ' ∨ c = '\t' ∨ c = '\n' ∨ c = '\r' := by
  simp [isSpace, or_assoc]

/-! ## Numbers -/

/-- Whether a number cannot go on with a text. -/
def endsNumber (s : List Char) : Bool := !continuesNumber s && !s.head?.any Char.isDigit

/-- A written number is read up to its end. -/
theorem number?_toDigits (n : Nat) (ends : endsNumber rest = true) :
    number? (Nat.toDigits 10 n ++ rest) = some (.natural n, rest) := by
  have hdigit : ∀ c ∈ Nat.toDigits 10 n, c.isDigit = true := fun _ => isDigit_of_mem_toDigits
  have hvalue : Nat.ofDigitChars 10 (Nat.toDigits 10 n) 0 = n := Nat.ofDigitChars_ten_toDigits
  -- a leading zero is the whole number
  have hzero : ¬ ((Nat.toDigits 10 n).head? = some '0' ∧ (Nat.toDigits 10 n).length > 1) := by
    rintro ⟨hhead, hlong⟩
    obtain ⟨ds, hds⟩ := List.head?_eq_some_iff.mp hhead
    rw [eq_zero_of_toDigits hds] at hlong
    exact absurd hlong (by decide)
  have hne : Nat.toDigits 10 n ≠ [] := Nat.toDigits_ne_nil
  generalize Nat.toDigits 10 n = ds at *
  obtain ⟨hcontinues, hnext⟩ :
      continuesNumber rest = false ∧ rest.head?.any Char.isDigit = false := by
    simpa [endsNumber] using ends
  have htake : rest.takeWhile Char.isDigit = [] := by
    cases rest with
    | nil => rfl
    | cons c rest => exact List.takeWhile_cons_of_neg (by simpa using hnext)
  have hdrop : rest.dropWhile Char.isDigit = rest := by
    cases rest with
    | nil => rfl
    | cons c rest => exact List.dropWhile_cons_of_neg (by simpa using hnext)
  have hsign : ((ds ++ rest).head? == some '-') = false := by
    cases ds with
    | nil => exact absurd rfl hne
    | cons c ds =>
        have hc : c ≠ '-' := by
          rintro rfl
          exact absurd (hdigit '-' List.mem_cons_self) (by decide)
        simpa using hc
  unfold number?
  simp only [hsign, Bool.false_eq_true, if_false, List.takeWhile_append_of_pos hdigit,
    List.dropWhile_append_of_pos hdigit, htake, hdrop, List.append_nil, Bool.false_or,
    hcontinues, hvalue, hne, hzero, or_self]

/-- What begins with a digit is read as a number. -/
theorem next?_of_isDigit {c : Char} (digit : c.isDigit = true) :
    next? (c :: cs) = number? (c :: cs) := by
  unfold next?
  split
  all_goals first | rfl | (next heq => exact absurd ((List.cons.inj heq).1 ▸ digit) (by decide))

theorem isSpace_of_isDigit {c : Char} (digit : c.isDigit = true) : isSpace c = false := by
  rw [Bool.eq_false_iff]
  intro hspace
  rcases isSpace_iff.mp hspace with rfl | rfl | rfl | rfl <;> exact absurd digit (by decide)

theorem scans_toDigits (n : Nat) (ends : endsNumber rest = true) :
    Scans (Nat.toDigits 10 n) [.natural n] rest := by
  have hread := number?_toDigits n ends
  obtain ⟨c, ds, hds⟩ : ∃ c ds, Nat.toDigits 10 n = c :: ds :=
    List.exists_cons_of_ne_nil Nat.toDigits_ne_nil
  have hc : c.isDigit = true := isDigit_of_mem_toDigits (hds ▸ List.mem_cons_self)
  rw [hds] at hread ⊢
  refine scans_token (isSpace_of_isDigit hc) ?_
  rw [List.cons_append, next?_of_isDigit hc]
  exact hread

/-! ## Values -/

/-- A new line may follow a number, and so may a comma. -/
theorem endsNumber_renderItems (depth depth' : Nat) (items : List Json) (rest : List Char) :
    endsNumber (renderItems depth items ++ (newLine depth' ++ rest)) = true := by
  cases items with
  | nil => rw [renderItems]; rfl
  | cons item items => rw [renderItems]; rfl

theorem endsNumber_renderMembers (depth depth' : Nat) (members : List (Option String × Json))
    (rest : List Char) :
    endsNumber (renderMembers depth members ++ (newLine depth' ++ rest)) = true := by
  cases members with
  | nil => rw [renderMembers]; rfl
  | cons member members => rw [renderMembers]; rfl

section

variable {depth : Nat} {c c' : Char} {t t' : Token} {us : List Token}

/-- A mark, and what stands on the line below. -/
theorem Scans.below (h : Scans cs ts rest) (space : isSpace c = false)
    (mark : ∀ s, next? (c :: s) = some (t, s)) :
    Scans (c :: newLine depth ++ cs) (t :: ts) rest :=
  ((scans_newLine depth (cs ++ rest)).append h).mark space mark

/-- What stands between two marks, on lines of its own. -/
theorem Scans.between (h : Scans cs ts (cs' ++ (newLine depth ++ c' :: rest)))
    (h' : Scans cs' us (newLine depth ++ c' :: rest))
    (mark : isSpace c = false ∧ ∀ s, next? (c :: s) = some (t, s))
    (mark' : isSpace c' = false ∧ ∀ s, next? (c' :: s) = some (t', s)) :
    Scans (c :: newLine (depth + 1) ++ cs ++ cs' ++ newLine depth ++ [c'])
      (t :: ts ++ us ++ [t']) rest := by
  have hfirst : Scans (c :: newLine (depth + 1) ++ cs) (t :: ts)
      (cs' ++ (newLine depth ++ c' :: rest)) := h.below mark.1 mark.2
  have hbreak : Scans (newLine depth) [] ([c'] ++ rest) := scans_newLine depth ([c'] ++ rest)
  have hlast : Scans [c'] [t'] rest := (scans_nil rest).mark mark'.1 mark'.2
  have hall := ((hfirst.append h').append hbreak).append hlast
  rwa [List.append_nil] at hall

end

mutual

/-- **Cutting what is written for a value gives the tokens of the value.** -/
theorem scans_renderAt (depth : Nat) (rest : List Char) (ends : endsNumber rest = true) :
    ∀ j, Scans (renderAt depth j) (tokens j) rest
  | .null | .otherNumber | .brokenString | .bool true | .bool false => by
      rw [renderAt, tokens]
      exact scans_token rfl rfl
  | .natural n => by
      rw [renderAt, tokens]
      exact scans_toDigits n ends
  | .string s => by
      rw [renderAt, tokens]
      exact scans_renderString s rest
  | .array [] | .object [] => by
      rw [renderAt, tokens]
      exact ((scans_nil rest).mark rfl fun _ => rfl).mark rfl fun _ => rfl
  | .array (item :: items) => by
      rw [renderAt, tokens]
      have hends := endsNumber_renderItems (depth + 1) depth items (']' :: rest)
      exact (scans_renderAt (depth + 1) _ hends item).between
        (scans_renderItems (depth + 1) depth (']' :: rest) items)
        ⟨rfl, fun _ => rfl⟩ ⟨rfl, fun _ => rfl⟩
  | .object (member :: members) => by
      rw [renderAt, tokens]
      have hends := endsNumber_renderMembers (depth + 1) depth members ('}' :: rest)
      exact (scans_renderMember (depth + 1) _ hends member).between
        (scans_renderMembers (depth + 1) depth ('}' :: rest) members)
        ⟨rfl, fun _ => rfl⟩ ⟨rfl, fun _ => rfl⟩

theorem scans_renderItems (depth depth' : Nat) (rest : List Char) :
    ∀ items, Scans (renderItems depth items) (itemTokens items) (newLine depth' ++ rest)
  | [] => by
      rw [renderItems, itemTokens]
      exact scans_nil _
  | item :: items => by
      rw [renderItems, itemTokens]
      have hends := endsNumber_renderItems depth depth' items rest
      exact ((scans_renderAt depth _ hends item).below rfl fun _ => rfl).append
        (scans_renderItems depth depth' rest items)

theorem scans_renderMember (depth : Nat) (rest : List Char) (ends : endsNumber rest = true) :
    ∀ member, Scans (renderMember depth member) (memberTokens member) rest
  | (name, j) => by
      rw [renderMember, memberTokens]
      have hspace : Scans [' '] [] (renderAt depth j ++ rest) :=
        scans_space (List.forall_mem_singleton.mpr rfl) _
      have hcolon : Scans [':', ' '] [.colon] (renderAt depth j ++ rest) :=
        hspace.mark rfl fun _ => rfl
      exact ((scans_renderString (name.getD "") _).append hcolon).append
        (scans_renderAt depth rest ends j)

theorem scans_renderMembers (depth depth' : Nat) (rest : List Char) :
    ∀ members, Scans (renderMembers depth members) (membersTokens members) (newLine depth' ++ rest)
  | [] => by
      rw [renderMembers, membersTokens]
      exact scans_nil _
  | member :: members => by
      rw [renderMembers, membersTokens]
      have hends := endsNumber_renderMembers depth depth' members rest
      exact ((scans_renderMember depth _ hends member).below rfl fun _ => rfl).append
        (scans_renderMembers depth depth' rest members)

end

/-- The layout of a text is lost, and so is space after its end. -/
theorem scan_render {space : List Char} (j : Json) (hspace : ∀ c ∈ space, isSpace c = true) :
    scan (renderAt 0 j ++ space) = some (tokens j) := by
  have hends : endsNumber space = true := by
    cases space with
    | nil => rfl
    | cons c space =>
        obtain rfl | rfl | rfl | rfl := isSpace_iff.mp (hspace c List.mem_cons_self) <;> rfl
  rw [← List.append_nil space] at hends
  have hall := (scans_renderAt 0 _ hends j).append (scans_space hspace [])
  rw [List.append_nil] at hall
  exact hall.scan

end ScriptSessions.Json
