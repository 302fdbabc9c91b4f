import ScriptSessions.Text.Blank
import ScriptSessions.Text.Search

set_option autoImplicit false

/-! # Documented members

A documentation file holds blocks of the form

    <member name="ID"> … <summary> TEXT </summary> … </member>

and is otherwise arbitrary text. A block begins at `<member`, blanks and `name="ID"` with a
non-empty `ID`, and ends at the next `</member>`; its summary is what stands between the first
`<summary>` and the next `</summary>`, with blanks normalized. A block without a summary
documents nothing. Of two summaries for one member the later one counts.
-/

namespace ScriptSessions.Documentation

open Text

/-! ## Blocks -/

/-- A member block: the name of the member and the text of the block. -/
structure MemberBlock where
  name : List Char
  body : List Char
deriving DecidableEq, Repr

/-- Skips one or more blanks. -/
def skipBlanks? : List Char → Option (List Char)
  | [] => none
  | c :: rest => if isBlank c then some (rest.dropWhile isBlank) else none

/-- Reads the block that begins here, and gives back the text after it. -/
def block? (s : List Char) : Option (MemberBlock × List Char) := do
  let s ← dropPrefix? "<member".toList s
  let s ← skipBlanks? s
  let s ← dropPrefix? "name=\"".toList s
  let name := s.takeWhile (· != '"')
  if name = [] then none
  else
    let s ← dropPrefix? ['"'] (s.dropWhile (· != '"'))
    let s ← dropPrefix? ['>'] (s.dropWhile isBlank)
    let (body, after) ← splitAtFirst? "</member>".toList s
    some (⟨name, body⟩, after)

theorem length_lt_of_block? {s after : List Char} {b : MemberBlock}
    (h : block? s = some (b, after)) : after.length < s.length := by
  have drop_le (p : Char → Bool) (l : List Char) : (l.dropWhile p).length ≤ l.length :=
    (List.dropWhile_sublist p).length_le
  simp only [block?, bind, Option.bind_eq_some_iff] at h
  obtain ⟨s₁, h₁, s₂, h₂, s₃, h₃, h⟩ := h
  split at h
  · simp at h
  · simp only [Option.bind_eq_some_iff] at h
    obtain ⟨s₄, h₄, s₅, h₅, ⟨body, rest⟩, h₆, h₇⟩ := h
    simp only [Option.some.injEq, Prod.mk.injEq] at h₇
    obtain ⟨-, rfl⟩ := h₇
    have e₁ := congrArg List.length (eq_append_of_dropPrefix? h₁)
    have e₂ : s₂.length ≤ s₁.length := by
      cases s₁ with
      | nil => simp [skipBlanks?] at h₂
      | cons c r =>
          simp only [skipBlanks?] at h₂
          split at h₂
          · simp only [Option.some.injEq] at h₂
            subst h₂
            have := drop_le isBlank r
            simp only [List.length_cons]; omega
          · simp at h₂
    have e₃ := congrArg List.length (eq_append_of_dropPrefix? h₃)
    have e₄ := congrArg List.length (eq_append_of_dropPrefix? h₄)
    have e₅ := congrArg List.length (eq_append_of_dropPrefix? h₅)
    have e₆ := congrArg List.length (eq_append_of_splitAtFirst? h₆)
    have d₃ := drop_le (· != '"') s₃
    have d₄ := drop_le isBlank s₄
    have t : 0 < "<member".toList.length := by decide
    simp only [List.length_append] at e₁ e₃ e₄ e₅ e₆
    omega

/-- The member blocks of a text, in order. -/
def blocks (s : List Char) : List MemberBlock :=
  match s with
  | [] => []
  | c :: rest =>
    match _h : block? (c :: rest) with
    | none => blocks rest
    | some (b, after) => b :: blocks after
termination_by s.length
decreasing_by
  · simp
  · exact length_lt_of_block? _h

/-- The summary in the text of a block. -/
def summary? (body : List Char) : Option (List Char) := do
  let (_, s) ← splitAtFirst? "<summary>".toList body
  let (summary, _) ← splitAtFirst? "</summary>".toList s
  some (normalizeBlanks summary)

/-! ## The table of members -/

/-- Summaries by member id, each id once. -/
abbrev Members := List (String × String)

/-- The table with a summary recorded for a member. -/
def Members.insert (m : Members) (id summary : String) : Members :=
  match m with
  | [] => [(id, summary)]
  | (i, s) :: rest =>
    if i = id then (id, summary) :: rest else (i, s) :: Members.insert rest id summary

/-- The members that a documentation text documents. -/
def Members.ofText (content : String) : Members :=
  (blocks content.toList).foldl
    (fun m b =>
      match summary? b.body with
      | none => m
      | some s => m.insert (String.ofList b.name) (String.ofList s)) []

end ScriptSessions.Documentation
