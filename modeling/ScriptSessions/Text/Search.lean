set_option autoImplicit false

/-! # Finding a fixed text

`dropPrefix? pat s` is what stands in `s` after `pat` if `s` begins with it, and
`splitAtFirst? pat s` cuts `s` around the first occurrence of `pat`. The parts make up the
whole again (`eq_append_of_dropPrefix?`, `eq_append_of_splitAtFirst?`). `substitute old new s`
is `s` with `new` in place of each `old`.
-/

namespace ScriptSessions.Text

/-- What stands after `pat` at the beginning of a text. -/
def dropPrefix? : List Char → List Char → Option (List Char)
  | [], s => some s
  | _ :: _, [] => none
  | p :: pat, c :: s => if p = c then dropPrefix? pat s else none

/-- What stands before and after the first occurrence of `pat`. -/
def splitAtFirst? (pat : List Char) : List Char → Option (List Char × List Char)
  | [] => if pat = [] then some ([], []) else none
  | c :: rest =>
    match dropPrefix? pat (c :: rest) with
    | some after => some ([], after)
    | none => (splitAtFirst? pat rest).map fun p => (c :: p.1, p.2)

/-- A text with `new` in place of each `old`, found from the left. -/
def substitute (old new : List Char) (s : List Char) : List Char := go 0 s
where
  /-- Passes over the rest of an `old` that has been found, and then looks for the next. -/
  go : Nat → List Char → List Char
    | _, [] => []
    | n + 1, _ :: rest => go n rest
    | 0, c :: rest =>
      match dropPrefix? old (c :: rest) with
      | some _ => new ++ go (old.length - 1) rest
      | none => c :: go 0 rest

theorem eq_append_of_dropPrefix? {pat s after : List Char}
    (h : dropPrefix? pat s = some after) : s = pat ++ after := by
  induction pat generalizing s with
  | nil => simpa [dropPrefix?] using h
  | cons p pat ih =>
      cases s with
      | nil => simp [dropPrefix?] at h
      | cons c s =>
          simp only [dropPrefix?] at h
          split at h
          · next hpc => rw [ih h, hpc]; rfl
          · simp at h

theorem dropPrefix?_append (pat after : List Char) :
    dropPrefix? pat (pat ++ after) = some after := by
  induction pat with
  | nil => rfl
  | cons p pat ih => simpa [dropPrefix?] using ih

theorem eq_append_of_splitAtFirst? {pat s before after : List Char}
    (h : splitAtFirst? pat s = some (before, after)) : s = before ++ pat ++ after := by
  induction s generalizing before with
  | nil =>
      simp only [splitAtFirst?] at h
      split at h <;> simp_all
  | cons c rest ih =>
      simp only [splitAtFirst?] at h
      split at h
      · next hp =>
          simp only [Option.some.injEq, Prod.mk.injEq] at h
          obtain ⟨rfl, rfl⟩ := h
          simpa using eq_append_of_dropPrefix? hp
      · next hp =>
          obtain ⟨⟨b, a⟩, hb, he⟩ := Option.map_eq_some_iff.1 h
          simp only [Prod.mk.injEq] at he
          obtain ⟨rfl, rfl⟩ := he
          simp [ih hb]

end ScriptSessions.Text
