import ScriptSessions.Proofs.Toml.Items

set_option autoImplicit false

/-! # Documents are read back

A document is written line by line, a setting on each line and a header between the settings of the
document and those of its table. Every line is read as one statement, and the statements are then
carried out (`ofText?_document`).

The reader of lines is bounded by the length of the text. A line takes up at least one character,
so the bound never falls below what is left to be read.
-/

namespace ScriptSessions.Toml

/-! ## Names -/

/-- Whether a name is written without quotes. -/
def IsBareName (name : String) : Prop :=
  name.toList ≠ [] ∧ ∀ c ∈ name.toList, isBareNameChar c = true

instance (name : String) : Decidable (IsBareName name) :=
  decidable_of_iff ((!name.toList.isEmpty && name.toList.all isBareNameChar) = true)
    (by simp [IsBareName])

theorem name?_append {name : String} (bare : IsBareName name) {c : Char}
    (hc : isBareNameChar c = false) (rest : List Char) :
    name? (name.toList ++ c :: rest) = some (name, c :: rest) := by
  obtain ⟨hnonempty, hchars⟩ := bare
  have hfirst (d : Char) (hd : isBareNameChar d = false) (t : List Char)
      (heq : name.toList ++ c :: rest = d :: t) : False := by
    obtain ⟨e, name', hname⟩ := List.exists_cons_of_ne_nil hnonempty
    rw [hname] at heq hchars
    obtain ⟨rfl, -⟩ := List.cons.inj heq
    rw [hchars e List.mem_cons_self] at hd
    cases hd
  rw [name?, takeWhile_append_cons hchars hc, dropWhile_append_cons hchars hc, if_neg hnonempty,
    String.ofList_toList]
  · exact hfirst '"' rfl
  · exact hfirst '\'' rfl

/-- A name that is followed by neither spaces nor a dot stands alone. -/
theorem dottedName?_append {name : String} (bare : IsBareName name) {c : Char}
    (hc : isBareNameChar c = false) (rest : List Char)
    (alone : (skipSpaces (c :: rest)).head? ≠ some '.') (names : Nat) :
    dottedName? (names + 1) (name.toList ++ c :: rest) = some (⟨[], name⟩, c :: rest) := by
  rw [dottedName?, name?_append bare hc]
  dsimp only
  split
  · next heq =>
      rw [heq] at alone
      exact absurd rfl alone
  · rfl

/-! ## Lines -/

/-- What is written for a setting does not begin with a space. -/
theorem render_eq_cons (v : Setting) :
    ∃ c text, v.render = c :: text ∧ isLineSpace c = false := by
  cases v with
  | string s =>
      obtain ⟨quote, text, htext, hquote⟩ := renderString_eq_cons s
      exact ⟨quote, text, htext, by rcases hquote with rfl | rfl <;> rfl⟩
  | strings ss =>
      match ss with
      | [] => exact ⟨'[', _, rfl, rfl⟩
      | [s] => exact ⟨'[', _, rfl, rfl⟩
      | s :: t :: ss => exact ⟨'[', _, rfl, rfl⟩
  | bool b => cases b <;> exact ⟨_, _, rfl, rfl⟩
  | natural n =>
      obtain ⟨c, text, htext⟩ := List.exists_cons_of_ne_nil (Nat.toDigits_ne_nil (n := n) (b := 10))
      have hdigit : c.isDigit = true :=
        Text.isDigit_of_mem_toDigits (htext ▸ List.mem_cons_self)
      have hne (d : Char) (hd : d.isDigit = false) : c ≠ d := by
        rintro rfl
        rw [hdigit] at hd
        cases hd
      exact ⟨c, text, htext, by simp [isLineSpace, hne ' ' rfl, hne '\t' rfl]⟩

theorem skipSpaces_of_first {c : Char} (h : isLineSpace c = false) (rest : List Char) :
    skipSpaces (c :: rest) = c :: rest :=
  List.dropWhile_cons_of_neg (by simp [h])

theorem nameAndEquals?_append {name : String} (bare : IsBareName name) {c : Char}
    (h : isLineSpace c = false) (rest : List Char) :
    nameAndEquals? (name.toList ++ ' ' :: '=' :: ' ' :: c :: rest)
      = some (⟨[], name⟩, c :: rest) := by
  have hspace (t : List Char) : skipSpaces (' ' :: '=' :: t) = '=' :: t := rfl
  have hvalue : skipSpaces (' ' :: c :: rest) = c :: rest := skipSpaces_of_first h rest
  rw [nameAndEquals?, nestingLimit, dottedName?_append bare rfl _ (by rw [hspace]; exact nofun)]
  simp only [hspace, hvalue]

/-- A bare name begins neither a header nor an idle line. -/
theorem first_of_isBareName {name : String} (bare : IsBareName name) (rest : List Char) :
    ∃ c text, name.toList ++ rest = c :: text ∧ c ≠ '[' ∧ isLineSpace c = false ∧
      isIdle (c :: text) = false := by
  obtain ⟨hnonempty, hchars⟩ := bare
  obtain ⟨c, name', hname⟩ := List.exists_cons_of_ne_nil hnonempty
  have hc : isBareNameChar c = true := hchars c (hname ▸ List.mem_cons_self)
  have hne (d : Char) (hd : isBareNameChar d = false) : c ≠ d := by
    rintro rfl
    rw [hc] at hd
    cases hd
  refine ⟨c, name' ++ rest, by rw [hname, List.cons_append], hne '[' rfl, ?_, ?_⟩
  · simp [isLineSpace, hne ' ' rfl, hne '\t' rfl]
  · simp [isIdle, endsLine, hne '#' rfl, hne '\n' rfl, hne '\r' rfl]

/-- The statement that a setting makes. -/
def assignment (entry : String × Setting) : Statement := .assign ⟨[], entry.1⟩ entry.2.item

/-- Whether a setting can be read back: its name needs no quotes, and its number is small. -/
def Readable (entry : String × Setting) : Prop := IsBareName entry.1 ∧ entry.2.Fits

theorem statement?_renderEntry {entry : String × Setting} (readable : Readable entry) {fuel : Nat}
    (enough : (renderEntry entry).length ≤ fuel) (rest : List Char) :
    statement? fuel (renderEntry entry ++ rest) = some (assignment entry, '\n' :: rest) := by
  obtain ⟨name, v⟩ := entry
  obtain ⟨hbare, hfits⟩ := readable
  have hfuel : v.render.length + 1 ≤ fuel := by
    simp [renderEntry] at enough
    omega
  have hvalue := item?_render hfits hfuel rest
  obtain ⟨c, text, htext, hc⟩ := render_eq_cons v
  have hline : renderEntry (name, v) ++ rest
      = name.toList ++ ' ' :: '=' :: ' ' :: c :: (text ++ '\n' :: rest) := by
    simp [renderEntry, htext]
  obtain ⟨d, more, hfirst, hheader, -⟩ :=
    first_of_isBareName hbare (' ' :: '=' :: ' ' :: c :: (text ++ '\n' :: rest))
  have hread := nameAndEquals?_append hbare hc (text ++ '\n' :: rest)
  rw [htext, List.cons_append] at hvalue
  rw [hline, statement?, hread]
  · dsimp only
    rw [hvalue]
    rfl
  · intro t heq
    rw [hfirst] at heq
    exact hheader (List.cons.inj heq).1
  · intro t heq
    rw [hfirst] at heq
    exact hheader (List.cons.inj heq).1

/-- A line that holds a statement. -/
theorem statements?_of_statement {fuel : Nat} {c : Char} {text rest : List Char}
    {statement : Statement} (space : isLineSpace c = false) (busy : isIdle (c :: text) = false)
    (read : statement? (fuel + 1) (c :: text) = some (statement, '\n' :: rest)) :
    statements? (fuel + 1) (c :: text) = (statements? fuel rest).map (statement :: ·) := by
  rw [statements?]
  · simp only [skipSpaces_of_first space, busy, read]
    rfl
  · exact nofun

/-- The lines of settings are read as statements, one for each. -/
theorem statements?_renderEntries (entries : List (String × Setting))
    (readable : ∀ entry ∈ entries, Readable entry) (rest : List Char) {fuel : Nat}
    (enough : (renderEntries entries ++ rest).length ≤ fuel) :
    ∃ fuel', rest.length ≤ fuel' ∧ statements? fuel (renderEntries entries ++ rest)
      = (statements? fuel' rest).map (entries.map assignment ++ ·) := by
  induction entries generalizing fuel with
  | nil => exact ⟨fuel, enough, by simp [renderEntries]⟩
  | cons entry entries ih =>
      have hentry := readable entry List.mem_cons_self
      have htext : renderEntries (entry :: entries) ++ rest
          = renderEntry entry ++ (renderEntries entries ++ rest) := by
        simp [renderEntries]
      rw [htext] at enough ⊢
      -- the line takes up at least its end
      obtain ⟨fuel, rfl⟩ : ∃ k, fuel = k + 1 :=
        Nat.exists_eq_add_one.mpr (by simp [renderEntry] at enough; omega)
      have hfuel : (renderEntry entry).length ≤ fuel + 1 := by
        rw [List.length_append] at enough
        omega
      have hread := statement?_renderEntry hentry hfuel (renderEntries entries ++ rest)
      obtain ⟨c, text, hfirst, -, hspace, hbusy⟩ := first_of_isBareName hentry.1
        ([' ', '=', ' '] ++ (entry.2.render ++ ('\n' :: (renderEntries entries ++ rest))))
      have hline : renderEntry entry ++ (renderEntries entries ++ rest) = c :: text := by
        rw [← hfirst]
        simp [renderEntry]
      have hfuel' : (renderEntries entries ++ rest).length ≤ fuel := by
        simp [renderEntry] at enough ⊢
        omega
      obtain ⟨fuel', henough, hrest⟩ :=
        ih (fun e he => readable e (List.mem_cons_of_mem _ he)) hfuel'
      refine ⟨fuel', henough, ?_⟩
      rw [hline] at hread ⊢
      rw [statements?_of_statement hspace hbusy hread, hrest, Option.map_map]
      rfl

theorem statement?_header {name : String} (bare : IsBareName name) (fuel : Nat)
    (rest : List Char) : statement? fuel ('[' :: (name.toList ++ ']' :: rest))
      = some (.openTable ⟨[], name⟩, rest) := by
  obtain ⟨c, text, hfirst, hheader, hspace, -⟩ := first_of_isBareName bare (']' :: rest)
  have hname : skipSpaces (name.toList ++ ']' :: rest) = name.toList ++ ']' :: rest := by
    rw [hfirst]
    exact skipSpaces_of_first hspace text
  have hclose (t : List Char) : skipSpaces (']' :: t) = ']' :: t := rfl
  have hdotted : dottedName? nestingLimit (name.toList ++ ']' :: rest)
      = some (⟨[], name⟩, ']' :: rest) :=
    dottedName?_append bare rfl rest (by rw [hclose]; exact nofun) 79
  rw [statement?, hname, hdotted]
  · simp only [hclose]
  · intro t heq
    rw [hfirst] at heq
    exact hheader (List.cons.inj heq).1

/-- A header is read as a statement, together with the empty line before it. -/
theorem statements?_renderHeader {name : String} (bare : IsBareName name) (rest : List Char)
    {fuel : Nat} (enough : (renderHeader name ++ rest).length ≤ fuel) :
    ∃ fuel', rest.length ≤ fuel' ∧ statements? fuel (renderHeader name ++ rest)
      = (statements? fuel' rest).map (.openTable ⟨[], name⟩ :: ·) := by
  have htext : renderHeader name ++ rest
      = '\n' :: '[' :: (name.toList ++ ']' :: ('\n' :: rest)) := by
    simp [renderHeader]
  rw [htext] at enough ⊢
  obtain ⟨fuel, rfl⟩ : ∃ k, fuel = k + 2 :=
    ⟨fuel - 2, by simp only [List.length_cons] at enough; omega⟩
  refine ⟨fuel, ?_, ?_⟩
  · simp only [List.length_cons, List.length_append] at enough
    omega
  · -- the empty line is passed over
    have hempty : statements? (fuel + 2) ('\n' :: '[' :: (name.toList ++ ']' :: ('\n' :: rest)))
        = statements? (fuel + 1) ('[' :: (name.toList ++ ']' :: ('\n' :: rest))) := rfl
    rw [hempty, statements?_of_statement rfl rfl (statement?_header bare (fuel + 1) ('\n' :: rest))]

/-! ## Tables -/

/-- The entries that settings make. -/
def itemsOf (settings : List (String × Setting)) : Entries :=
  settings.map fun entry => (entry.1, entry.2.item)

theorem lookup_itemsOf_eq_none {settings : List (String × Setting)} {name : String}
    (absent : ∀ entry ∈ settings, entry.1 ≠ name) : (itemsOf settings).lookup name = none := by
  refine List.lookup_eq_none_iff.mpr fun entry hentry => ?_
  obtain ⟨setting, hsetting, rfl⟩ := List.mem_map.mp hentry
  simpa using (absent setting hsetting).symm

theorem execute?_assignment {root : Entries} (entry : String × Setting)
    (fresh : root.lookup entry.1 = none) :
    Draft.execute? ⟨[], root⟩ (assignment entry)
      = some ⟨[], root ++ [(entry.1, entry.2.item)]⟩ := by
  simp [Draft.execute?, assignment, Entries.modify?, Entries.assign?, fresh]

theorem execute?_openTable {root : Entries} {name : String} (fresh : root.lookup name = none) :
    Draft.execute? ⟨[], root⟩ (.openTable ⟨[], name⟩)
      = some ⟨[name], root ++ [(name, .table .header [])]⟩ := by
  simp [Draft.execute?, Entries.openTable?, Entries.modify?, fresh, DottedName.names]

theorem replace_append {front : Entries} {name : String} (absent : front.lookup name = none)
    (item item' : Item) :
    Entries.replace name item' (front ++ [(name, item)]) = front ++ [(name, item')] := by
  induction front with
  | nil => simp [Entries.replace]
  | cons entry front ih =>
      obtain ⟨other, i⟩ := entry
      have hne : other ≠ name := by
        rintro rfl
        rw [List.lookup_cons_self] at absent
        cases absent
      have hfront : front.lookup name = none := by
        rwa [List.lookup_cons, beq_eq_false_iff_ne.mpr hne.symm] at absent
      rw [List.cons_append, Entries.replace, if_neg hne, ih hfront, List.cons_append]

/-- Settings after a header are entries of its table, which is the last of the document. -/
theorem execute?_assignment_table {front table : Entries} {name : String}
    (absent : front.lookup name = none) (entry : String × Setting)
    (fresh : table.lookup entry.1 = none) :
    Draft.execute? ⟨[name], front ++ [(name, .table .header table)]⟩ (assignment entry)
      = some ⟨[name], front ++ [(name, .table .header (table ++ [(entry.1, entry.2.item)]))]⟩ := by
  have hlookup : (front ++ [(name, Item.table .header table)]).lookup name
      = some (.table .header table) := by
    simp [List.lookup_append, absent]
  simp [Draft.execute?, assignment, Entries.modify?, Entries.assign?, fresh, hlookup,
    replace_append absent]

/-- Settings are carried out one after another, wherever in a document they stand: `place` is the
document, given the table that they belong to. -/
theorem foldlM_assignments (place : Entries → Draft)
    (step : ∀ (table : Entries) (entry : String × Setting), table.lookup entry.1 = none →
      (place table).execute? (assignment entry)
        = some (place (table ++ [(entry.1, entry.2.item)])))
    (settings : List (String × Setting)) (distinct : (settings.map (·.1)).Nodup) (table : Entries)
    (fresh : ∀ entry ∈ settings, table.lookup entry.1 = none) :
    (settings.map assignment).foldlM Draft.execute? (place table)
      = some (place (table ++ itemsOf settings)) := by
  induction settings generalizing table with
  | nil => simp [itemsOf]
  | cons entry settings ih =>
      obtain ⟨hentry, hdistinct⟩ := List.nodup_cons.mp distinct
      have hfresh : ∀ other ∈ settings,
          (table ++ [(entry.1, entry.2.item)]).lookup other.1 = none := by
        intro other hother
        have hne : (other.1 == entry.1) = false := beq_eq_false_iff_ne.mpr fun heq =>
          hentry (List.mem_map.mpr ⟨other, hother, heq⟩)
        have htable := fresh other (List.mem_cons_of_mem _ hother)
        simp [List.lookup_append, htable, List.lookup_cons, hne]
      rw [List.map_cons, List.foldlM_cons, step table entry (fresh entry List.mem_cons_self)]
      refine (ih hdistinct _ hfresh).trans ?_
      simp [itemsOf]

/-! ## Documents -/

theorem dropByteOrderMark_eq {s : List Char} (h : NotAhead '\ufeff' s) :
    dropByteOrderMark s = s := by
  unfold dropByteOrderMark
  split
  · exact absurd rfl h
  · rfl

/-- A document does not begin with the mark of its byte order. -/
theorem notAhead_renderEntries {settings : List (String × Setting)}
    (readable : ∀ entry ∈ settings, Readable entry) (rest : List Char)
    (after : NotAhead '\ufeff' rest) : NotAhead '\ufeff' (renderEntries settings ++ rest) := by
  cases settings with
  | nil => exact after
  | cons entry settings =>
      obtain ⟨hnonempty, hchars⟩ := (readable entry List.mem_cons_self).1
      obtain ⟨c, name, hname⟩ := List.exists_cons_of_ne_nil hnonempty
      have hc := hchars c (hname ▸ List.mem_cons_self)
      intro hhead
      have heq : c = '\ufeff' := by
        simpa [renderEntries, renderEntry, hname] using hhead
      rw [heq] at hc
      exact absurd hc (by decide)

theorem ofText?_of_statements {text : List Char} (mark : NotAhead '\ufeff' text)
    {statements : List Statement} (read : statements? text.length text = some statements)
    (draft : Draft) (run : statements.foldlM Draft.execute? {} = some draft) :
    ofText? (String.ofList text) = some draft.root := by
  simp only [ofText?, String.toList_ofList, dropByteOrderMark_eq mark, read, Option.bind_some,
    ofStatements?, run, Option.map_some]

/-- The settings at the beginning of a document. -/
theorem foldlM_root (settings : List (String × Setting))
    (distinct : (settings.map (·.1)).Nodup) :
    (settings.map assignment).foldlM Draft.execute? {} = some ⟨[], itemsOf settings⟩ :=
  foldlM_assignments (fun root => ⟨[], root⟩)
    (fun _ entry fresh => execute?_assignment entry fresh) settings distinct [] fun _ _ => rfl

/-- **Settings are read back**: a document of settings alone is the table of their items. -/
theorem ofText?_renderEntries (settings : List (String × Setting))
    (readable : ∀ entry ∈ settings, Readable entry) (distinct : (settings.map (·.1)).Nodup) :
    ofText? (String.ofList (renderEntries settings)) = some (itemsOf settings) := by
  have hmark := notAhead_renderEntries readable [] nofun
  obtain ⟨fuel, -, hread⟩ := statements?_renderEntries settings readable [] (Nat.le_refl _)
  rw [List.append_nil] at hmark hread
  rw [statements?, Option.map_some, List.append_nil] at hread
  exact ofText?_of_statements hmark hread _ (foldlM_root settings distinct)

/-- The same of a document with a table after its own settings. -/
theorem ofText?_withTable (settings options : List (String × Setting)) {name : String}
    (readable : ∀ entry ∈ settings ++ options, Readable entry) (bare : IsBareName name)
    (distinct : (settings.map (·.1)).Nodup) (absent : ∀ entry ∈ settings, entry.1 ≠ name)
    (distinct' : (options.map (·.1)).Nodup) :
    ofText? (String.ofList (renderEntries settings ++ renderHeader name ++ renderEntries options))
      = some (itemsOf settings ++ [(name, .table .header (itemsOf options))]) := by
  have hsettings : ∀ entry ∈ settings, Readable entry := fun entry hentry =>
    readable entry (List.mem_append_left _ hentry)
  have hoptions : ∀ entry ∈ options, Readable entry := fun entry hentry =>
    readable entry (List.mem_append_right _ hentry)
  have hlookup := lookup_itemsOf_eq_none absent
  rw [List.append_assoc]
  have hmark :=
    notAhead_renderEntries hsettings (renderHeader name ++ renderEntries options) nofun
  -- the three parts are read one after another, and each leaves room enough for the next
  obtain ⟨fuel, henough, hread⟩ := statements?_renderEntries settings hsettings
    (renderHeader name ++ renderEntries options) (Nat.le_refl _)
  obtain ⟨fuel', henough', hheader⟩ :=
    statements?_renderHeader bare (renderEntries options) henough
  rw [← List.append_nil (renderEntries options)] at henough'
  obtain ⟨fuel'', -, hread'⟩ := statements?_renderEntries options hoptions [] henough'
  rw [List.append_nil, statements?, Option.map_some, List.append_nil] at hread'
  rw [hheader, hread', Option.map_some, Option.map_some] at hread
  refine ofText?_of_statements hmark hread ⟨[name], _⟩ ?_
  rw [List.foldlM_append, foldlM_root settings distinct]
  simp only [Option.bind_eq_bind, Option.bind_some, List.foldlM_cons, execute?_openTable hlookup]
  exact foldlM_assignments
    (fun table => ⟨[name], itemsOf settings ++ [(name, .table .header table)]⟩)
    (fun _ entry fresh => execute?_assignment_table hlookup entry fresh) options distinct' []
    fun _ _ => rfl

end ScriptSessions.Toml
