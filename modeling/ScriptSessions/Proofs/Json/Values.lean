import ScriptSessions.Json.Parser
import ScriptSessions.Proofs.Json.Tokens

set_option autoImplicit false

/-! # Values are read back

Not every value can be written: of a number that is not natural nothing is known, and a broken
string has no text. A value without such parts is called exact (`Json.Exact`), and an exact value is
read back from what is written for it (`Json.ofText?_render`).

The depth to which the readers may go is bounded. As many levels as the value has tokens are always
enough (`Exact.readBack`): the readers of items and of members go a level deeper for every element,
and every element has a token of its own before it, the opening mark or a comma.
-/

namespace ScriptSessions.Json

/-- A value of which nothing is lost: every number in it is natural, every string in it spells a
text, and the names of all members can be read. -/
inductive Exact : Json → Prop where
  | null : Exact .null
  | bool (b : Bool) : Exact (.bool b)
  | natural (n : Nat) : Exact (.natural n)
  | string (s : String) : Exact (.string s)
  | array {items : List Json} (h : ∀ j ∈ items, Exact j) : Exact (.array items)
  | ofMembers {members : List (String × Json)} (h : ∀ m ∈ members, Exact m.2) :
      Exact (ofMembers members)

/-- A value that is read back from its tokens by a reader that may go as deep as there are tokens. -/
def ReadBack (j : Json) : Prop :=
  ∀ fuel, (tokens j).length ≤ fuel → ∀ rest, value? fuel (tokens j ++ rest) = some (j, rest)

/-! ## Arrays -/

/-- No value begins with the mark that ends an array. -/
theorem tokens_append_ne (j : Json) (ts us : List Token) :
    tokens j ++ ts ≠ .closeBracket :: us := by
  unfold tokens
  split <;> simp

/-- Items are read up to the mark that ends the array. -/
theorem items?_tokens {items : List Json} (h : ∀ j ∈ items, ReadBack j) (rest : List Token)
    {item : Json} (hitem : ReadBack item) (fuel : Nat)
    (hfuel : (tokens item).length + (itemTokens items).length ≤ fuel) :
    items? (fuel + 1) (tokens item ++ (itemTokens items ++ .closeBracket :: rest))
      = some (item :: items, rest) := by
  induction items generalizing item fuel with
  | nil =>
      rw [items?, hitem fuel (by omega)]
      rfl
  | cons next items ih =>
      rw [itemTokens] at hfuel ⊢
      simp only [List.cons_append, List.length_cons, List.length_append] at hfuel
      -- the comma pays for the level below
      obtain ⟨fuel, rfl⟩ : ∃ k, fuel = k + 1 := ⟨fuel - 1, by omega⟩
      have hmore := ih (fun j hj => h j (List.mem_cons_of_mem next hj)) (h next List.mem_cons_self)
        fuel (by omega)
      rw [items?, hitem (fuel + 1) (by omega)]
      simp [hmore]

/-- An array is read back if its items are. -/
theorem readBack_array {items : List Json} (h : ∀ j ∈ items, ReadBack j) :
    ReadBack (.array items) := by
  intro fuel hfuel rest
  cases items with
  | nil =>
      rw [tokens] at hfuel ⊢
      obtain ⟨fuel, rfl⟩ := Nat.exists_eq_add_one_of_ne_zero (Nat.ne_zero_of_lt hfuel)
      rfl
  | cons item items =>
      rw [tokens] at hfuel ⊢
      simp only [List.cons_append, List.length_cons, List.length_append, List.length_nil] at hfuel
      -- one level for the array and one for its items, which the two marks pay for
      obtain ⟨fuel, rfl⟩ : ∃ k, fuel = k + 1 + 1 := ⟨fuel - 2, by omega⟩
      have hitems := items?_tokens (fun j hj => h j (List.mem_cons_of_mem item hj)) rest
        (h item List.mem_cons_self) fuel (by omega)
      simp only [List.cons_append, List.append_assoc, List.nil_append]
      rw [value?, hitems, Option.map_some]
      exact tokens_append_ne item _

/-! ## Objects -/

theorem memberTokens_some (name : String) (j : Json) :
    memberTokens (some name, j) = .string (some name) :: .colon :: tokens j := by
  rw [memberTokens]
  rfl

/-- Members are read up to the mark that ends the object. -/
theorem members?_tokens {members : List (String × Json)} (h : ∀ m ∈ members, ReadBack m.2)
    (rest : List Token) (name : String) {j : Json} (hj : ReadBack j) (fuel : Nat)
    (hfuel : (tokens j).length
      + (membersTokens (members.map fun m => (some m.1, m.2))).length ≤ fuel) :
    members? (fuel + 1) (memberTokens (some name, j)
        ++ (membersTokens (members.map fun m => (some m.1, m.2)) ++ .closeBrace :: rest))
      = some ((some name, j) :: members.map fun m => (some m.1, m.2), rest) := by
  induction members generalizing name j fuel with
  | nil => simp [memberTokens, members?, hj fuel (by omega), membersTokens]
  | cons next members ih =>
      simp only [List.map_cons, membersTokens, memberTokens_some, List.cons_append,
        List.length_cons, List.length_append, List.append_assoc] at ih hfuel ⊢
      obtain ⟨fuel, rfl⟩ : ∃ k, fuel = k + 1 := ⟨fuel - 1, by omega⟩
      have hmore := ih (fun m hm => h m (List.mem_cons_of_mem next hm)) next.1
        (h next List.mem_cons_self) fuel (by omega)
      rw [members?, hj (fuel + 1) (by omega)]
      simp only [hmore, Option.map_some]

/-- An object is read back if its members are. -/
theorem readBack_ofMembers {members : List (String × Json)} (h : ∀ m ∈ members, ReadBack m.2) :
    ReadBack (ofMembers members) := by
  intro fuel hfuel rest
  cases members with
  | nil =>
      rw [ofMembers, List.map_nil, tokens] at hfuel ⊢
      obtain ⟨fuel, rfl⟩ := Nat.exists_eq_add_one_of_ne_zero (Nat.ne_zero_of_lt hfuel)
      rfl
  | cons member members =>
      simp only [ofMembers, List.map_cons, tokens, memberTokens_some, List.cons_append,
        List.length_cons, List.length_append, List.length_nil, List.append_assoc, List.nil_append]
        at hfuel ⊢
      obtain ⟨fuel, rfl⟩ : ∃ k, fuel = k + 1 + 1 := ⟨fuel - 2, by omega⟩
      have hmembers := members?_tokens (fun m hm => h m (List.mem_cons_of_mem member hm)) rest
        member.1 (h member List.mem_cons_self) fuel (by omega)
      rw [memberTokens_some, List.cons_append, List.cons_append] at hmembers
      rw [value?, hmembers, Option.map_some]
      exact nofun

/-! ## Exact values -/

theorem Exact.readBack {j : Json} (h : j.Exact) : ReadBack j := by
  induction h with
  | array _ ih => exact readBack_array ih
  | ofMembers _ ih => exact readBack_ofMembers ih
  | null | bool | natural | string =>
      intro fuel hfuel rest
      rw [tokens] at hfuel ⊢
      obtain ⟨fuel, rfl⟩ := Nat.exists_eq_add_one_of_ne_zero (Nat.ne_zero_of_lt hfuel)
      rw [List.cons_append, value?, List.nil_append]

/-- **An exact value is read back from what is written for it**, also if there is space after it. -/
theorem ofText?_render {j : Json} (h : j.Exact) {space : String}
    (hspace : ∀ c ∈ space.toList, isSpace c = true) : ofText? (j.render ++ space) = some j := by
  have hscan := scan_render j hspace
  have hvalue := h.readBack ((tokens j).length + 1) (Nat.le_succ _) []
  rw [List.append_nil] at hvalue
  rw [ofText?, String.toList_append, render, String.toList_ofList, hscan]
  simp [hvalue]

end ScriptSessions.Json
