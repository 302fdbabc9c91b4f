import Mathlib.Data.List.Sort
import Mathlib.Data.List.TakeWhile
import Mathlib.Data.Set.Subsingleton
import ScriptSessions.Proofs.Lists
import ScriptSessions.Session.Directive

set_option autoImplicit false

/-! # Which lines are directives

The scanner goes through a text once and cuts it as it goes. What it has to find is said here
without it: a text is cut at its newlines (`Text.cutLines`), and a line is a directive if it can be
written as blanks, a keyword, at least one blank and a quoted value, with anything after it
(`Directive.IsWritten`). A line can be written so in one way at most, because no keyword begins
with a blank, none begins with another one, and no value holds a quote.

`Directive.eq_scan_iff` says that scanning gives the directives of these lines in their order, and
nothing else.
-/

namespace ScriptSessions

/-! ## Lines -/

namespace Text

/-- A line without the carriage return that belongs to the newline after it. -/
def withoutReturn (line : List Char) : List Char :=
  if line.getLast? = some '\r' then line.dropLast else line

/-- The lines among the pieces of a text between its newlines. A newline ends every piece but the
last, and what stands after the last newline is a line unless it is empty. -/
def linesOfPieces : List (List Char) → List (List Char)
  | [] => []
  | [last] => if last = [] then [] else [last]
  | piece :: rest => withoutReturn piece :: linesOfPieces rest

/-- The lines of a text, by cutting it at its newlines. -/
def cutLines (cs : List Char) : List (List Char) := linesOfPieces (cs.splitOn '\n')

theorem withoutReturn_cons {c : Char} {piece : List Char} (h : c ≠ '\r' ∨ piece ≠ []) :
    withoutReturn (c :: piece) = c :: withoutReturn piece := by
  cases piece with
  | nil =>
      have hc : c ≠ '\r' := h.resolve_right fun hne => hne rfl
      simp [withoutReturn, hc]
  | cons d rest =>
      simp only [withoutReturn, List.getLast?_cons_cons, List.dropLast_cons_cons]
      split <;> rfl

theorem splitOn_newline (rest : List Char) :
    ('\n' :: rest).splitOn '\n' = [] :: rest.splitOn '\n' := by
  rw [List.splitOn_cons_eq_if_modifyHead, if_pos (beq_self_eq_true _)]

theorem splitOn_of_ne {c : Char} (h : c ≠ '\n') (rest : List Char) :
    (c :: rest).splitOn '\n' = (rest.splitOn '\n').modifyHead (c :: ·) := by
  rw [List.splitOn_cons_eq_if_modifyHead, if_neg (by simpa using h)]

/-- A character that is no part of a line end begins the first line. -/
theorem linesOfPieces_modifyHead {c : Char} {piece : List Char} {rest : List (List Char)}
    (h : c ≠ '\r' ∨ piece ≠ [] ∨ rest = []) :
    linesOfPieces ((c :: piece) :: rest) = match linesOfPieces (piece :: rest) with
      | [] => [[c]]
      | line :: others => (c :: line) :: others := by
  cases rest with
  | nil =>
      by_cases hpiece : piece = []
      · simp [linesOfPieces, hpiece]
      · simp [linesOfPieces, hpiece]
  | cons next rest =>
      have hc : c ≠ '\r' ∨ piece ≠ [] := by simpa using h
      simp only [linesOfPieces, withoutReturn_cons hc]

/-- What begins the text begins its first line, unless it is a line end. -/
theorem linesOfPieces_splitOn {c : Char} {rest : List Char} (newline : c ≠ '\n')
    (carriage : ∀ rest', c = '\r' → rest ≠ '\n' :: rest') :
    linesOfPieces ((c :: rest).splitOn '\n') = match linesOfPieces (rest.splitOn '\n') with
      | [] => [[c]]
      | line :: others => (c :: line) :: others := by
  obtain ⟨piece, pieces, hsplit⟩ := List.exists_cons_of_ne_nil (List.splitOn_ne_nil '\n' rest)
  rw [splitOn_of_ne newline, hsplit]
  refine linesOfPieces_modifyHead ?_
  by_cases hc : c = '\r'
  · -- a carriage return is kept unless its piece, and so the line, ends with it
    refine .inr ?_
    cases rest with
    | nil => exact .inr (List.cons.inj hsplit).2.symm
    | cons d rest =>
        have hd : d ≠ '\n' := fun hd => carriage rest hc (by rw [hd])
        obtain ⟨p, ps, hrest⟩ := List.exists_cons_of_ne_nil (List.splitOn_ne_nil '\n' rest)
        rw [splitOn_of_ne hd, hrest] at hsplit
        rw [← (List.cons.inj hsplit).1]
        exact .inl (List.cons_ne_nil d p)
  · exact .inl hc

/-- Reading a text from its beginning gives the lines between its newlines. -/
theorem lines_eq_cutLines (cs : List Char) : lines cs = cutLines cs := by
  unfold cutLines
  -- the cases are an empty text, the two line ends, and a character without or with a line to join
  fun_induction lines cs with
  | case1 => rfl
  | case2 rest ih =>
      obtain ⟨piece, pieces, hsplit⟩ := List.exists_cons_of_ne_nil (List.splitOn_ne_nil '\n' rest)
      rw [splitOn_newline, ih, hsplit]
      rfl
  | case3 rest ih =>
      obtain ⟨piece, pieces, hsplit⟩ := List.exists_cons_of_ne_nil (List.splitOn_ne_nil '\n' rest)
      rw [splitOn_of_ne (by decide), splitOn_newline, ih, hsplit]
      rfl
  | case4 c rest newline carriage hnone ih =>
      rw [linesOfPieces_splitOn newline carriage, ← ih, hnone]
  | case5 c rest newline carriage line others hsome ih =>
      rw [linesOfPieces_splitOn newline carriage, ← ih, hsome]

end Text

namespace Directive

open Text

/-! ## Directive lines -/

/-- A line on which a directive of the given kind and value is written: blanks, the keyword, at
least one blank, and the value in double quotes. Anything may stand after it, and no double quote
stands in the value. -/
def IsWritten (kind : DirectiveKind) (value line : List Char) : Prop :=
  ∃ indent gap rest, line = indent ++ (kind.keyword ++ (gap ++ '"' :: (value ++ '"' :: rest))) ∧
    (∀ c ∈ indent, isBlank c = true) ∧ gap ≠ [] ∧ (∀ c ∈ gap, isBlank c = true) ∧ '"' ∉ value

/-- The value after a keyword stands in quotes after at least one blank. -/
theorem value?_eq_some_iff {cs value : List Char} : value? cs = some value ↔
    ∃ gap rest, cs = gap ++ '"' :: (value ++ '"' :: rest) ∧ gap ≠ [] ∧
      (∀ c ∈ gap, isBlank c = true) ∧ '"' ∉ value := by
  constructor
  · intro h
    cases cs with
    | nil => cases h
    | cons c rest =>
        simp only [value?] at h
        split at h
        · next hc =>
            split at h
            · next quoted hdrop =>
                split at h
                · next hmem =>
                    obtain rfl := Option.some.inj h
                    obtain ⟨after, hafter⟩ := exists_dropWhile_ne hmem
                    refine ⟨c :: rest.takeWhile isBlank, after, ?_, List.cons_ne_nil _ _, ?_, ?_⟩
                    · rw [← eq_append_of_dropWhile hafter, List.cons_append,
                        ← eq_append_of_dropWhile hdrop]
                    · intro d hd
                      rcases List.mem_cons.mp hd with rfl | hmem
                      · exact hc
                      · exact List.mem_takeWhile_imp hmem
                    · intro hquote
                      simpa using List.mem_takeWhile_imp hquote
                · cases h
            · cases h
        · cases h
  · rintro ⟨gap, rest, rfl, hgap, blank, hvalue⟩
    obtain ⟨c, gap, rfl⟩ := List.exists_cons_of_ne_nil hgap
    have hc := blank c List.mem_cons_self
    have hdrop := dropWhile_append_cons (fun d hd => blank d (List.mem_cons_of_mem c hd))
      (show isBlank '"' = false by decide) (value ++ '"' :: rest)
    have htake : (value ++ '"' :: rest).takeWhile (· != '"') = value := by
      refine takeWhile_append_cons (fun d hd => ?_) (by decide) rest
      simpa using fun heq : d = '"' => hvalue (heq ▸ hd)
    simp [value?, hc, hdrop, htake]

/-- A line is read as a directive after its blanks, by its keyword. -/
theorem ofLine?_keyword {indent : List Char} (blank : ∀ c ∈ indent, isBlank c = true)
    (kind : DirectiveKind) (rest : List Char) :
    ofLine? (indent ++ (kind.keyword ++ rest)) = (value? rest).map (kind, ·) := by
  have hhash : isBlank '#' = false := by decide
  cases kind with
  | reference =>
      simp only [ofLine?, DirectiveKind.keyword, List.cons_append,
        dropWhile_append_cons blank hhash]
      rfl
  | load =>
      simp only [ofLine?, DirectiveKind.keyword, List.cons_append,
        dropWhile_append_cons blank hhash]
      simp [dropPrefix?]

/-- A line that is read as a directive begins with blanks and a keyword. -/
theorem exists_keyword_of_ofLine? {line value : List Char} {kind : DirectiveKind}
    (h : ofLine? line = some (kind, value)) :
    ∃ rest, line = line.takeWhile isBlank ++ (kind.keyword ++ rest) ∧ value? rest = some value := by
  simp only [ofLine?] at h
  split at h
  · next rest hrest =>
      obtain ⟨value', hvalue, heq⟩ := Option.map_eq_some_iff.mp h
      cases heq
      exact ⟨rest, eq_append_of_dropWhile (eq_append_of_dropPrefix? hrest), hvalue⟩
  · split at h
    · next rest hrest =>
        obtain ⟨value', hvalue, heq⟩ := Option.map_eq_some_iff.mp h
        cases heq
        exact ⟨rest, eq_append_of_dropWhile (eq_append_of_dropPrefix? hrest), hvalue⟩
    · cases h

/-- A line is read as a directive exactly if it is written as one. -/
theorem ofLine?_eq_some_iff {line value : List Char} {kind : DirectiveKind} :
    ofLine? line = some (kind, value) ↔ IsWritten kind value line := by
  constructor
  · intro h
    obtain ⟨rest, hline, hvalue⟩ := exists_keyword_of_ofLine? h
    obtain ⟨gap, after, rfl, hgap, blank, hquote⟩ := value?_eq_some_iff.mp hvalue
    exact ⟨_, gap, after, hline, fun c hc => List.mem_takeWhile_imp hc, hgap, blank, hquote⟩
  · rintro ⟨indent, gap, rest, rfl, hindent, hgap, blank, hquote⟩
    rw [ofLine?_keyword hindent,
      value?_eq_some_iff.mpr ⟨gap, rest, rfl, hgap, blank, hquote⟩]
    rfl

/-! ## Directives of a text -/

/-- What it means that `ds` are the directives of a text. -/
structure Listed (text : String) (ds : List Directive) : Prop where
  /-- Those and only those are listed that are written on the line with their number. -/
  mem_iff : ∀ d, d ∈ ds ↔ ∃ line, (cutLines text.toList)[d.line]? = some line ∧
    IsWritten d.kind d.value.toList line
  /-- They are listed in the order of the lines, at most one of each. -/
  sorted : ds.Pairwise (·.line < ·.line)

/-- The directives of the lines after the first one, and what the first one gives. -/
theorem mem_ofLines_cons {first : Nat} {line : List Char} {rest : List (List Char)}
    {d : Directive} : d ∈ ofLines first (line :: rest) ↔
      (d.line = first ∧ ofLine? line = some (d.kind, d.value.toList)) ∨
        d ∈ ofLines (first + 1) rest := by
  rw [ofLines]
  cases hread : ofLine? line with
  | none => simp
  | some found =>
      obtain ⟨kind, value⟩ := found
      obtain ⟨kind', value', line'⟩ := d
      rw [List.mem_cons, Directive.mk.injEq, Option.some.injEq, Prod.mk.injEq]
      refine or_congr ⟨?_, ?_⟩ Iff.rfl
      · rintro ⟨rfl, rfl, rfl⟩
        exact ⟨rfl, rfl, String.toList_ofList.symm⟩
      · rintro ⟨rfl, rfl, rfl⟩
        exact ⟨rfl, String.ofList_toList.symm, rfl⟩

theorem mem_ofLines {first : Nat} {lines : List (List Char)} {d : Directive} :
    d ∈ ofLines first lines ↔ ∃ i line, lines[i]? = some line ∧ d.line = first + i ∧
      ofLine? line = some (d.kind, d.value.toList) := by
  induction lines generalizing first with
  | nil => simp [ofLines]
  | cons line rest ih =>
      rw [mem_ofLines_cons, ih]
      constructor
      · rintro (⟨hline, hread⟩ | ⟨i, line', at_i, hline, hread⟩)
        · exact ⟨0, line, rfl, hline, hread⟩
        · exact ⟨i + 1, line', at_i, by omega, hread⟩
      · rintro ⟨i, line', at_i, hline, hread⟩
        cases i with
        | zero => exact .inl ⟨hline, Option.some.inj at_i ▸ hread⟩
        | succ i => exact .inr ⟨i, line', at_i, by omega, hread⟩

theorem sorted_ofLines (first : Nat) (lines : List (List Char)) :
    (ofLines first lines).Pairwise (·.line < ·.line) := by
  induction lines generalizing first with
  | nil => exact .nil
  | cons line rest ih =>
      rw [ofLines]
      split
      · exact ih (first + 1)
      · refine List.pairwise_cons.mpr ⟨fun d hd => ?_, ih (first + 1)⟩
        obtain ⟨i, -, -, hline, -⟩ := mem_ofLines.mp hd
        show first < d.line
        omega

theorem listed_scan (text : String) : Listed text (scan text) := by
  refine ⟨fun d => ?_, sorted_ofLines 0 _⟩
  rw [scan, mem_ofLines, lines_eq_cutLines]
  constructor
  · rintro ⟨i, line, at_i, hline, hread⟩
    rw [Nat.zero_add] at hline
    exact ⟨line, hline ▸ at_i, ofLine?_eq_some_iff.mp hread⟩
  · rintro ⟨line, at_line, hwritten⟩
    exact ⟨d.line, line, at_line, (Nat.zero_add _).symm, ofLine?_eq_some_iff.mpr hwritten⟩

/-- **Scanning gives the directives of a text.** A list is what scanning gives, exactly if it lists
the directives that are written on the lines of the text, in the order of the lines; and no line
can be read as two directives. -/
theorem eq_scan_iff (text : String) :
    (∀ ds, ds = scan text ↔ Listed text ds) ∧
      ∀ line, {d : DirectiveKind × List Char | IsWritten d.1 d.2 line}.Subsingleton := by
  constructor
  · intro ds
    constructor
    · rintro rfl
      exact listed_scan text
    · intro h
      have hscan := listed_scan text
      exact h.sorted.eq_of_mem_iff hscan.sorted fun d => (h.mem_iff d).trans (hscan.mem_iff d).symm
  · intro line d hd d' hd'
    have heq := (ofLine?_eq_some_iff.mpr hd).symm.trans (ofLine?_eq_some_iff.mpr hd')
    exact Option.some.inj heq

end Directive

end ScriptSessions
