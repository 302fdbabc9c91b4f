import Mathlib.Order.Monotone.Basic
import ScriptSessions.Proofs.Session.Scan

set_option autoImplicit false

/-! # Scanning goes line by line

Whether a line is a directive depends on nothing but the line, and the line is known up to the
carriage returns at its end. So the directives of a text can be read off the pieces between its
newlines (`Directive.scan_eq_ofLines`), where a last empty piece does no harm. Three laws follow.
Texts that are joined by a newline are scanned one after the other; a carriage return before every
newline makes no difference; and inserting or deleting lines that are no directives changes the
numbers of the lines and nothing else. The numbers are told by `Directive.renumber`.
-/

namespace ScriptSessions

/-! ## Pieces of a text -/

namespace Text

/-- A text with a carriage return before every newline. -/
def withReturns (cs : List Char) : List Char :=
  cs.flatMap fun c => if c = '\n' then ['\r', '\n'] else [c]

/-- A text has one piece more than it has newlines. -/
theorem length_splitOn_newline (cs : List Char) :
    (cs.splitOn '\n').length = cs.count '\n' + 1 := by
  induction cs with
  | nil => rfl
  | cons c rest ih =>
      by_cases hc : c = '\n'
      · rw [hc, splitOn_newline, List.length_cons, ih, List.count_cons_self]
      · rw [splitOn_of_ne hc, List.length_modifyHead, ih, List.count_cons_of_ne hc]

/-- The pieces of a text may end in carriage returns when it is written with them. -/
theorem forall₂_splitOn_withReturns (cs : List Char) :
    List.Forall₂ (fun piece piece' => piece' = piece ∨ piece' = piece ++ ['\r'])
      (cs.splitOn '\n') ((withReturns cs).splitOn '\n') := by
  induction cs with
  | nil => exact .cons (.inl rfl) .nil
  | cons c rest ih =>
      by_cases hc : c = '\n'
      · have hreturns : withReturns (c :: rest) = '\r' :: '\n' :: withReturns rest := by
          rw [hc]; rfl
        rw [hreturns, hc, splitOn_newline, splitOn_of_ne (by decide), splitOn_newline]
        exact .cons (.inr rfl) ih
      · have hreturns : withReturns (c :: rest) = c :: withReturns rest := by
          simp [withReturns, hc]
        rw [hreturns, splitOn_of_ne hc, splitOn_of_ne hc]
        -- the character begins the first piece of either text
        revert ih
        generalize rest.splitOn '\n' = pieces
        generalize (withReturns rest).splitOn '\n' = pieces'
        rintro (_ | ⟨hhead, htail⟩)
        · exact .nil
        · refine .cons ?_ htail
          rcases hhead with rfl | rfl
          · exact .inl rfl
          · exact .inr rfl

end Text

namespace Directive

open Text

/-! ## What ends a line -/

/-- What stands at the end of a line makes no difference to a directive, unless it is a quote. -/
theorem isWritten_append_singleton {kind : DirectiveKind} {value line : List Char} {c : Char}
    (hc : c ≠ '"') : IsWritten kind value (line ++ [c]) ↔ IsWritten kind value line := by
  constructor
  · rintro ⟨indent, gap, rest, hline, hindent, hgap, blank, hquote⟩
    rcases List.eq_nil_or_concat rest with rfl | ⟨front, last, rfl⟩
    · -- the line would end in the closing quote
      have hends : line ++ [c] = (indent ++ (kind.keyword ++ (gap ++ '"' :: value))) ++ ['"'] := by
        simpa using hline
      exact absurd (List.singleton_inj.mp (List.append_inj' hends rfl).2) hc
    · have hends : line ++ [c]
          = (indent ++ (kind.keyword ++ (gap ++ '"' :: (value ++ '"' :: front)))) ++ [last] := by
        simpa using hline
      exact ⟨indent, gap, front, (List.append_inj' hends rfl).1, hindent, hgap, blank, hquote⟩
  · rintro ⟨indent, gap, rest, rfl, hindent, hgap, blank, hquote⟩
    exact ⟨indent, gap, rest ++ [c], by simp, hindent, hgap, blank, hquote⟩

theorem isWritten_withoutReturn {kind : DirectiveKind} {value line : List Char} :
    IsWritten kind value (withoutReturn line) ↔ IsWritten kind value line := by
  rw [withoutReturn]
  split
  · next hlast =>
      obtain ⟨front, rfl⟩ := List.getLast?_eq_some_iff.mp hlast
      rw [List.dropLast_concat, isWritten_append_singleton (by decide)]
  · exact Iff.rfl

/-- Lines with the same directives are read alike. -/
theorem ofLine?_congr {line line' : List Char}
    (h : ∀ kind value, IsWritten kind value line ↔ IsWritten kind value line') :
    ofLine? line = ofLine? line' := by
  refine Option.ext fun p => ?_
  rw [ofLine?_eq_some_iff, ofLine?_eq_some_iff]
  exact h p.1 p.2

/-! ## Lines and pieces -/

/-- Lines that are read alike have the same directives. -/
theorem ofLines_congr {lines lines' : List (List Char)}
    (h : List.Forall₂ (fun line line' => ofLine? line = ofLine? line') lines lines')
    (first : Nat) : ofLines first lines = ofLines first lines' := by
  induction h generalizing first with
  | nil => rfl
  | cons hline _ ih => rw [ofLines, ofLines, hline, ih]

/-- The pieces between the newlines of a text have the directives of its lines. -/
theorem ofLines_linesOfPieces (first : Nat) (pieces : List (List Char)) :
    ofLines first (linesOfPieces pieces) = ofLines first pieces := by
  induction pieces generalizing first with
  | nil => rfl
  | cons piece rest ih =>
      cases rest with
      | nil =>
          by_cases hpiece : piece = []
          · rw [hpiece]
            rfl
          · rw [linesOfPieces, if_neg hpiece]
      | cons next rest =>
          have hread : ofLine? (withoutReturn piece) = ofLine? piece :=
            ofLine?_congr fun _ _ => isWritten_withoutReturn
          rw [linesOfPieces, ofLines, ofLines, hread, ih]
          exact List.cons_ne_nil next rest

theorem scan_eq_ofLines (text : String) :
    scan text = ofLines 0 (text.toList.splitOn '\n') := by
  rw [scan, lines_eq_cutLines, cutLines, ofLines_linesOfPieces]

/-! ## Numbers of lines -/

/-- The same directive on a line with another number. -/
def renumber (number : Nat → Nat) (d : Directive) : Directive := { d with line := number d.line }

theorem ofLines_add (first k : Nat) (lines : List (List Char)) :
    ofLines (first + k) lines = (ofLines first lines).map (renumber (· + k)) := by
  induction lines generalizing first with
  | nil => rfl
  | cons line rest ih =>
      have hrest := ih (first + 1)
      rw [Nat.add_right_comm] at hrest
      rw [ofLines, ofLines, hrest]
      cases ofLine? line with
      | none => rfl
      | some found => rfl

theorem ofLines_append (first : Nat) (lines lines' : List (List Char)) :
    ofLines first (lines ++ lines')
      = ofLines first lines ++ (ofLines first lines').map (renumber (· + lines.length)) := by
  induction lines generalizing first with
  | nil => exact (ofLines_add first 0 lines')
  | cons line rest ih =>
      have hrest : ofLines (first + 1) (rest ++ lines') = ofLines (first + 1) rest
          ++ (ofLines first lines').map (renumber (· + (line :: rest).length)) := by
        rw [ih, ← ofLines_add, ← ofLines_add, List.length_cons]
        congr 2
        omega
      rw [List.cons_append, ofLines, ofLines, hrest]
      cases ofLine? line with
      | none => rfl
      | some found => rfl

/-! ## Lines without directives -/

/-- The text `long` is the text `short` with lines inserted that are no directives, and `number`
gives the new numbers of the lines of `short`. What ends a line does not matter. -/
structure Padded (number : Nat → Nat) (short long : String) : Prop where
  /-- The lines keep their order. -/
  strictMono : StrictMono number
  kept : ∀ i line, (cutLines short.toList)[i]? = some line →
    ∃ line', (cutLines long.toList)[number i]? = some line' ∧
      withoutReturn line' = withoutReturn line
  /-- A line of the long text is a line of the short one, or no directive. -/
  inserted : ∀ j line', (cutLines long.toList)[j]? = some line' →
    (∃ i line, number i = j ∧ (cutLines short.toList)[i]? = some line) ∨
      ∀ kind value, ¬ IsWritten kind value line'

variable {number : Nat → Nat} {short long : String}

/-- Lines that are no directives may be inserted in any place. -/
theorem padded_insert (front added back : List (List Char))
    (hshort : cutLines short.toList = front ++ back)
    (hlong : cutLines long.toList = front ++ (added ++ back))
    (idle : ∀ line ∈ added, ofLine? line = none) :
    Padded (fun i => if i < front.length then i else i + added.length) short long := by
  have hnot : ∀ line ∈ added, ∀ kind value, ¬ IsWritten kind value line := by
    intro line hline kind value written
    rw [← ofLine?_eq_some_iff, idle line hline] at written
    cases written
  refine ⟨fun i j hij => ?_, fun i line at_i => ⟨line, ?_, rfl⟩, fun j line' at_j => ?_⟩
  · split <;> split <;> omega
  · rw [hshort, List.getElem?_append] at at_i
    rw [hlong]
    split at at_i
    · next hi => rw [if_pos hi, List.getElem?_append_left hi, at_i]
    · next hi =>
        rw [if_neg hi, List.getElem?_append_right (by omega), List.getElem?_append_right (by omega),
          ← at_i]
        congr 1
        omega
  · rw [hlong, List.getElem?_append] at at_j
    rw [hshort]
    split at at_j
    · next hj => exact .inl ⟨j, line', if_pos hj, by rw [List.getElem?_append_left hj, at_j]⟩
    · next hj =>
        rw [List.getElem?_append] at at_j
        split at at_j
        · exact .inr (hnot line' (List.mem_of_getElem? at_j))
        · next hadded =>
            refine .inl ⟨j - added.length, line', ?_, ?_⟩
            · rw [if_neg (by omega)]
              omega
            · rw [List.getElem?_append_right (by omega), ← at_j]
              congr 1
              omega

theorem Padded.mem_scan_iff (h : Padded number short long) (d : Directive) :
    d ∈ scan long ↔ d ∈ (scan short).map (renumber number) := by
  have hsame {i : Nat} {line line' : List Char} (at_i : (cutLines short.toList)[i]? = some line)
      (at_number : (cutLines long.toList)[number i]? = some line') (kind : DirectiveKind)
      (value : List Char) : IsWritten kind value line' ↔ IsWritten kind value line := by
    obtain ⟨line'', at_number', heq⟩ := h.kept i line at_i
    rw [at_number] at at_number'
    rw [← isWritten_withoutReturn, Option.some.inj at_number', heq, isWritten_withoutReturn]
  rw [List.mem_map, (listed_scan long).mem_iff]
  constructor
  · rintro ⟨line', at_line, written⟩
    rcases h.inserted d.line line' at_line with ⟨i, line, hi, at_i⟩ | hnot
    · refine ⟨⟨d.kind, d.value, i⟩, ?_, by rw [renumber, hi]⟩
      rw [← hi] at at_line
      exact ((listed_scan short).mem_iff _).mpr ⟨line, at_i, (hsame at_i at_line _ _).mp written⟩
    · exact absurd written (hnot d.kind d.value.toList)
  · rintro ⟨e, he, rfl⟩
    obtain ⟨line, at_line, written⟩ := ((listed_scan short).mem_iff e).mp he
    obtain ⟨line', at_number, -⟩ := h.kept e.line line at_line
    exact ⟨line', at_number, (hsame at_line at_number _ _).mpr written⟩

/-- Inserting lines that are no directives changes nothing but the numbers of the lines. -/
theorem Padded.scan_eq (h : Padded number short long) :
    scan long = (scan short).map (renumber number) := by
  have hsorted : ((scan short).map (renumber number)).Pairwise (·.line < ·.line) :=
    List.pairwise_map.mpr ((listed_scan short).sorted.imp fun hlt => h.strictMono hlt)
  exact (listed_scan long).sorted.eq_of_mem_iff hsorted h.mem_scan_iff

/-- **Scanning goes line by line.** Texts that are joined by a newline are scanned one after the
other, with the lines of the second one counted from where the first one ends. Carriage returns
before the newlines make no difference, and neither do lines that are no directives, but for the
numbers of the lines. -/
theorem scan_lineLocal :
    (∀ a b : String, scan (a ++ "\n" ++ b)
      = scan a ++ (scan b).map (renumber (· + (a.toList.count '\n' + 1)))) ∧
    (∀ text : String, scan (String.ofList (withReturns text.toList)) = scan text) ∧
    ∀ number short long, Padded number short long →
      scan long = (scan short).map (renumber number) := by
  refine ⟨fun a b => ?_, fun text => ?_, fun number short long h => h.scan_eq⟩
  · have hjoined : (a ++ "\n" ++ b).toList = a.toList ++ '\n' :: b.toList := by simp
    rw [scan_eq_ofLines, hjoined, List.splitOn_append_cons_self, ofLines_append,
      length_splitOn_newline, scan_eq_ofLines, scan_eq_ofLines]
  · rw [scan_eq_ofLines, scan_eq_ofLines, String.toList_ofList]
    refine (ofLines_congr ((forall₂_splitOn_withReturns text.toList).imp ?_) 0).symm
    rintro piece piece' (rfl | rfl)
    · rfl
    · exact ofLine?_congr fun _ _ => (isWritten_append_singleton (by decide)).symm

/-- Two lines of code between two directives. -/
theorem spaced_scan :
    Padded (fun i => if i < 1 then i else i + 2)
      "#r \"a\"\n#load \"b\"" "#r \"a\"\r\n\n1 + 1\n#load \"b\"\n" ∧
    scan "#r \"a\"\r\n\n1 + 1\n#load \"b\"\n"
      = (scan "#r \"a\"\n#load \"b\"").map (renumber fun i => if i < 1 then i else i + 2) ∧
    scan "#r \"a\"\n#load \"b\"" = [⟨.reference, "a", 0⟩, ⟨.load, "b", 1⟩] := by
  have hpadded : Padded (fun i => if i < 1 then i else i + 2)
      "#r \"a\"\n#load \"b\"" "#r \"a\"\r\n\n1 + 1\n#load \"b\"\n" :=
    padded_insert ["#r \"a\"".toList] [[], "1 + 1".toList] ["#load \"b\"".toList]
      (by decide) (by decide) (by decide)
  exact ⟨hpadded, scan_lineLocal.2.2 _ _ _ hpadded, by decide⟩

end Directive

end ScriptSessions
