import ScriptSessions.Documentation.Members
import ScriptSessions.Proofs.Reference.DefaultMerge
import ScriptSessions.Proofs.Session.Locations
import ScriptSessions.Proofs.Text

set_option autoImplicit false

/-! # Reading what was written

A documentation text is written as member blocks with other text before, between and after them
(`Documentation.Written`). In the other text a block must not even begin, and a block holds its own
end only at its end; all else is arbitrary, and bodies may hold anything that looks like a block.
Reading finds the blocks where they were written (`Documentation.Written.blocks_content`), because
the texts it looks for begin with a character that does not come again in them, so none of them lies
across a seam.

A member that is written several times has the summary of the last block that holds one
(`Documentation.ofText_written`).
-/

namespace ScriptSessions

namespace Text

/-- Words with one space between neighbours have no blank at either end. -/
theorem isTrimmed_intercalate {ws : List (List Char)} (h : ∀ w ∈ ws, IsWord w) :
    IsTrimmed (String.ofList ([' '].intercalate ws)) := by
  unfold IsTrimmed
  rw [String.toList_ofList]
  induction ws with
  | nil => exact ⟨nofun, nofun⟩
  | cons w rest ih =>
      have hw := h w List.mem_cons_self
      obtain ⟨ihfirst, ihlast⟩ := ih fun v hv => h v (List.mem_cons_of_mem w hv)
      cases rest with
      | nil =>
          rw [List.intercalate_singleton]
          exact ⟨fun c hc => hw.solid c (List.mem_of_head? hc),
            fun c hc => hw.solid c (List.mem_of_getLast? hc)⟩
      | cons v more =>
          obtain ⟨c, w, rfl⟩ := List.exists_cons_of_ne_nil hw.ne_nil
          obtain ⟨d, v, rfl⟩ := List.exists_cons_of_ne_nil
            (h v (List.mem_cons_of_mem _ List.mem_cons_self)).ne_nil
          have hmore : [' '].intercalate ((d :: v) :: more) ≠ [] := by
            cases more <;> simp
          rw [List.intercalate_cons_cons, List.getLast?_append_of_ne_nil _ hmore]
          refine ⟨fun e he => ?_, ihlast⟩
          rw [← Option.some.inj he]
          exact hw.solid c List.mem_cons_self

/-- A text in which only words and single spaces are left. -/
structure IsNormal (s : String) : Prop where
  words : ∃ ws, (∀ w ∈ ws, IsWord w) ∧ s.toList = [' '].intercalate ws
  trimmed : IsTrimmed s
  again : String.ofList (normalizeBlanks s.toList) = s

theorem isNormal_normalizeBlanks (cs : List Char) :
    IsNormal (String.ofList (normalizeBlanks cs)) := by
  have hwords : ∀ w ∈ words cs, IsWord w := fun _ => isWord_of_mem_words
  refine ⟨⟨words cs, hwords, String.toList_ofList⟩, isTrimmed_intercalate hwords, ?_⟩
  rw [String.toList_ofList, normalizeBlanks_normalizeBlanks]

/-- The normal form of a text: its words, which are the pieces between blanks that are not empty,
with one space between neighbours. -/
structure IsNormalFormOf (text : List Char) (s : String) : Prop where
  eq : s = String.ofList (normalizeBlanks text)
  words : words s.toList = words text
  pieces : Text.words text = (text.splitOnP isBlank).filter (· ≠ [])

theorem isNormalFormOf_iff {text : List Char} {s : String} :
    IsNormalFormOf text s ↔ s = String.ofList (normalizeBlanks text) := by
  refine ⟨IsNormalFormOf.eq, ?_⟩
  rintro rfl
  refine ⟨rfl, ?_, words_eq text⟩
  rw [String.toList_ofList, words_normalizeBlanks]

end Text

namespace Documentation

open Text

/-! ## Documentation as it is written -/

/-- A member block as it is written, with the blanks before the name and those behind it. -/
structure WrittenBlock where
  block : MemberBlock
  gap : List Char
  tail : List Char
  name_ne_nil : block.name ≠ []
  name_quote : '"' ∉ block.name
  body_end : ¬ "</member>".toList <:+: block.body
  gap_ne_nil : gap ≠ []
  gap_blank : ∀ c ∈ gap, isBlank c = true
  tail_blank : ∀ c ∈ tail, isBlank c = true

/-- The text of a block. -/
def WrittenBlock.text (b : WrittenBlock) : List Char :=
  "<member".toList ++ (b.gap ++ ("name=\"".toList ++ (b.block.name ++ '"' :: (b.tail ++
    '>' :: (b.block.body ++ "</member>".toList)))))

/-- Text in which no block begins. -/
structure Filler where
  text : List Char
  free : ∀ c, isBlank c = true → ¬ "<member".toList ++ [c] <:+: text

/-- Documentation as it is written: some text, and then blocks, each with the text behind it. -/
structure Written where
  first : Filler
  rest : List (WrittenBlock × Filler)

namespace Written

/-- The blocks that were written. -/
def blocks (d : Written) : List MemberBlock := d.rest.map (·.1.block)

/-- Blocks with the text behind them. -/
def textOf (rest : List (WrittenBlock × Filler)) : List Char :=
  rest.flatMap fun p => p.1.text ++ p.2.text

/-- The whole text. -/
def content (d : Written) : String := String.ofList (d.first.text ++ textOf d.rest)

end Written

/-! ## Reading the blocks -/

/-- A block begins with `<member` and a blank. -/
theorem opening_of_block? {s : List Char} (h : block? s ≠ none) :
    ∃ c, isBlank c = true ∧ "<member".toList ++ [c] <+: s := by
  obtain ⟨result, hresult⟩ := Option.ne_none_iff_exists'.mp h
  simp only [block?, bind, Option.bind_eq_some_iff] at hresult
  obtain ⟨s₁, hs₁, s₂, hs₂, -⟩ := hresult
  cases s₁ with
  | nil => cases hs₂
  | cons c rest =>
      rw [skipBlanks?] at hs₂
      split at hs₂
      · next hc =>
          refine ⟨c, hc, rest, ?_⟩
          rw [eq_append_of_dropPrefix? hs₁, List.append_assoc]
          rfl
      · cases hs₂

/-- **A block that is written is read**, whatever stands behind it. -/
theorem block?_text (b : WrittenBlock) (after : List Char) :
    block? (b.text ++ after) = some (b.block, after) := by
  have hskip (rest : List Char) : skipBlanks? (b.gap ++ 'n' :: rest) = some ('n' :: rest) := by
    obtain ⟨c, gap, hgap⟩ := List.exists_cons_of_ne_nil b.gap_ne_nil
    have hblank := b.gap_blank
    rw [hgap] at hblank ⊢
    rw [List.cons_append, skipBlanks?, if_pos (hblank c List.mem_cons_self),
      dropWhile_append_cons (fun d hd => hblank d (List.mem_cons_of_mem c hd)) (by decide)]
  have hname : ∀ c ∈ b.block.name, (c != '"') = true := by
    intro c hc
    simpa using fun heq : c = '"' => b.name_quote (heq ▸ hc)
  have hquote (rest : List Char) :
      (b.block.name ++ '"' :: rest).takeWhile (· != '"') = b.block.name ∧
        (b.block.name ++ '"' :: rest).dropWhile (· != '"') = '"' :: rest :=
    ⟨takeWhile_append_cons hname (by decide) rest, dropWhile_append_cons hname (by decide) rest⟩
  have htail (rest : List Char) : (b.tail ++ '>' :: rest).dropWhile isBlank = '>' :: rest :=
    dropWhile_append_cons b.tail_blank (by decide) rest
  have hend : splitAtFirst? "</member>".toList
      (b.block.body ++ "</member>".toList ++ after) = some (b.block.body, after) := by
    have honce : '<' ∉ "/member>".toList := by decide
    exact (splitAtFirst?_eq_some_iff honce).mpr ⟨rfl, b.body_end⟩
  have hone (c : Char) (rest : List Char) : dropPrefix? [c] (c :: rest) = some rest :=
    dropPrefix?_append [c] rest
  have hn : "name=\"".toList = 'n' :: "ame=\"".toList := rfl
  unfold block? WrittenBlock.text
  simp only [List.append_assoc, List.cons_append, Option.bind_eq_bind] at hend ⊢
  -- each part is read and leaves the parts behind it
  rw [dropPrefix?_append, Option.bind_some, hn, List.cons_append, hskip, Option.bind_some,
    ← List.cons_append, ← hn, dropPrefix?_append, Option.bind_some, (hquote _).1,
    if_neg b.name_ne_nil, (hquote _).2, hone, Option.bind_some, htail, hone, Option.bind_some, hend]
  rfl

/-! ## Reading the text -/

theorem blocks_cons_of_none {c : Char} {rest : List Char} (h : block? (c :: rest) = none) :
    blocks (c :: rest) = blocks rest := by
  rw [blocks]
  split
  · rfl
  · next hsome => rw [h] at hsome; cases hsome

theorem blocks_of_some {s after : List Char} {b : MemberBlock} (h : block? s = some (b, after)) :
    blocks s = b :: blocks after := by
  cases s with
  | nil => cases h
  | cons c rest =>
      rw [blocks]
      split
      · next hnone => rw [h] at hnone; cases hnone
      · next hsome =>
          rw [h] at hsome
          cases hsome
          rfl

/-- Text in which no block begins is passed over. -/
theorem blocks_filler (f : Filler) {s : List Char} (hs : ∀ c ∈ s.head?, c = '<') :
    blocks (f.text ++ s) = blocks s := by
  obtain ⟨text, free⟩ := f
  dsimp only
  induction text with
  | nil => rfl
  | cons c rest ih =>
      have hrest := ih fun d hd hinfix => free d hd (List.infix_cons hinfix)
      rw [List.cons_append, blocks_cons_of_none ?_, hrest]
      by_contra hsome
      obtain ⟨d, hd, hopening⟩ := opening_of_block? hsome
      have honce : '<' ∉ "member".toList ++ [d] := by
        rw [List.mem_append, List.mem_singleton, not_or]
        refine ⟨by decide, ?_⟩
        rintro rfl
        exact absurd hd (by decide)
      have hwithin := prefix_of_prefix_append honce (List.cons_ne_nil c rest) hs hopening
      exact free d hd hwithin.isInfix

/-- The text of a block begins with `<`. -/
theorem head?_textOf (rest : List (WrittenBlock × Filler)) :
    ∀ c ∈ (Written.textOf rest).head?, c = '<' := by
  cases rest with
  | nil => exact nofun
  | cons p rest => exact fun c hc => (Option.some.inj hc).symm

/-- **Reading finds the blocks that were written**, and no others. -/
theorem Written.blocks_content (d : Written) :
    Documentation.blocks d.content.toList = d.blocks := by
  rw [content, String.toList_ofList, blocks_filler d.first (head?_textOf d.rest),
    Written.blocks]
  induction d.rest with
  | nil =>
      rw [textOf, List.flatMap_nil, Documentation.blocks]
      rfl
  | cons p rest ih =>
      have htext : textOf (p :: rest) = p.1.text ++ (p.2.text ++ textOf rest) := by
        rw [textOf, List.flatMap_cons, List.append_assoc]
        rfl
      rw [htext, blocks_of_some (block?_text p.1 _), blocks_filler p.2 (head?_textOf rest), ih]
      rfl

/-! ## Summaries -/

/-- The text between the first `<summary>` of a body and the next `</summary>` after it. -/
def IsSummary (body text : List Char) : Prop :=
  ∃ before after, body = before ++ "<summary>".toList ++ (text ++ "</summary>".toList ++ after) ∧
    ¬ "<summary>".toList <:+: before ∧ ¬ "</summary>".toList <:+: text

/-- Whether a body holds a `<summary>` with a `</summary>` anywhere behind it. -/
def HasSummary (body : List Char) : Prop :=
  ∃ before text after, body = before ++ "<summary>".toList ++ (text ++ "</summary>".toList ++ after)

theorem summary?_eq_some_iff {body summary : List Char} :
    summary? body = some summary ↔
      ∃ text, IsSummary body text ∧ summary = normalizeBlanks text := by
  have hopening : '<' ∉ "summary>".toList := by decide
  have hclosing : '<' ∉ "/summary>".toList := by decide
  have hopen (s before after : List Char) :
      splitAtFirst? "<summary>".toList s = some (before, after) ↔
        s = before ++ "<summary>".toList ++ after ∧ ¬ "<summary>".toList <:+: before :=
    splitAtFirst?_eq_some_iff hopening
  have hclose (s text after : List Char) :
      splitAtFirst? "</summary>".toList s = some (text, after) ↔
        s = text ++ "</summary>".toList ++ after ∧ ¬ "</summary>".toList <:+: text :=
    splitAtFirst?_eq_some_iff hclosing
  simp only [summary?, Option.bind_eq_bind, Option.bind_eq_some_iff, Option.some.injEq]
  constructor
  · rintro ⟨⟨before, s⟩, hs, ⟨text, after⟩, htext, rfl⟩
    obtain ⟨rfl, hfirst⟩ := (hopen _ _ _).mp hs
    obtain ⟨rfl, hnext⟩ := (hclose _ _ _).mp htext
    exact ⟨text, ⟨before, after, rfl, hfirst, hnext⟩, rfl⟩
  · rintro ⟨text, ⟨before, after, rfl, hfirst, hnext⟩, rfl⟩
    exact ⟨(before, _), (hopen _ _ _).mpr ⟨rfl, hfirst⟩, (text, after),
      (hclose _ _ _).mpr ⟨rfl, hnext⟩, rfl⟩

/-- A body has no summary only if it holds no opening with a closing behind it: behind the first
opening stands all that stands behind any other one. -/
theorem summary?_eq_none_iff {body : List Char} : summary? body = none ↔ ¬ HasSummary body := by
  have hclosing : "</summary>".toList ≠ [] := by decide
  constructor
  · rintro hnone ⟨before, text, after, hbody⟩
    cases hopen : splitAtFirst? "<summary>".toList body with
    | none =>
        refine (splitAtFirst?_eq_none_iff (by decide)).mp hopen ⟨before, _, hbody.symm⟩
    | some p =>
        obtain ⟨first, s⟩ := p
        have hsuffix := suffix_of_splitAtFirst? hopen hbody
        have hinfix : "</summary>".toList <:+: s :=
          List.IsInfix.trans ⟨text, after, rfl⟩ hsuffix.isInfix
        cases hclose : splitAtFirst? "</summary>".toList s with
        | none => exact (splitAtFirst?_eq_none_iff hclosing).mp hclose hinfix
        | some q =>
            rw [summary?, hopen, Option.bind_eq_bind, Option.bind_some] at hnone
            dsimp only at hnone
            rw [hclose] at hnone
            cases hnone
  · intro hnone
    rw [Option.eq_none_iff_forall_ne_some]
    intro summary hsummary
    obtain ⟨text, ⟨before, after, hbody, -, -⟩, -⟩ := summary?_eq_some_iff.mp hsummary
    exact hnone ⟨before, text, after, hbody⟩

/-! ## The table -/

theorem Members.insert_eq_record (m : Members) (id summary : String) :
    m.insert id summary = Reference.record m id summary := by
  induction m with
  | nil => rfl
  | cons p rest ih => rw [Members.insert, Reference.record, ih]

/-- The id of the member that a block is about. -/
def MemberBlock.id (b : MemberBlock) : String := String.ofList b.name

/-- The summary that a block has for a member. -/
def MemberBlock.summaryFor? (b : MemberBlock) (id : String) : Option String :=
  if b.id = id then (summary? b.body).map String.ofList else none

/-- The table with the summary of a block. -/
def Members.addBlock (m : Members) (b : MemberBlock) : Members :=
  match summary? b.body with
  | none => m
  | some s => m.insert b.id (String.ofList s)

theorem ofText_eq (content : String) :
    Members.ofText content = (blocks content.toList).foldl Members.addBlock [] :=
  rfl

theorem Members.lookup_addBlock (m : Members) (b : MemberBlock) (id : String) :
    (m.addBlock b).lookup id = (b.summaryFor? id).or (m.lookup id) := by
  rw [addBlock, MemberBlock.summaryFor?]
  cases summary? b.body with
  | none => simp
  | some summary =>
      dsimp only
      rw [insert_eq_record, Reference.lookup_record]
      by_cases h : b.id = id
      · rw [if_pos h, if_pos h.symm]
        rfl
      · rw [if_neg h, if_neg (Ne.symm h)]
        rfl

theorem Members.nodup_addBlock {m : Members} (h : (m.map Prod.fst).Nodup) (b : MemberBlock) :
    ((m.addBlock b).map Prod.fst).Nodup := by
  rw [addBlock]
  cases summary? b.body with
  | none => exact h
  | some summary =>
      dsimp only
      rw [insert_eq_record, Reference.fst_record]
      by_cases hold : b.id ∈ m.map Prod.fst
      · rwa [if_pos hold]
      · rw [if_neg hold]
        exact List.nodup_append_comm.mp (List.nodup_cons.mpr ⟨hold, h⟩)

/-- The summary of a member in a text is that of the last block that has one for it. -/
theorem lookup_ofText (content id : String) : (Members.ofText content).lookup id
    = ((blocks content.toList).filterMap (·.summaryFor? id)).getLast? := by
  rw [ofText_eq]
  induction blocks content.toList using List.reverseRecOn with
  | nil => rfl
  | append_singleton front b ih =>
      rw [List.foldl_append, List.foldl_cons, List.foldl_nil, Members.lookup_addBlock, ih,
        List.filterMap_append, List.getLast?_append]
      cases hb : b.summaryFor? id <;> simp [hb]

theorem nodup_ofText (content : String) : ((Members.ofText content).map Prod.fst).Nodup := by
  rw [ofText_eq]
  induction blocks content.toList using List.reverseRecOn with
  | nil => exact List.nodup_nil
  | append_singleton front b ih =>
      rw [List.foldl_append, List.foldl_cons, List.foldl_nil]
      exact Members.nodup_addBlock ih b

/-- The last block that has a summary for a member is followed by none that has. -/
theorem lookup_ofText_eq_some_iff {content id summary : String} :
    (Members.ofText content).lookup id = some summary ↔
      ∃ front b back, blocks content.toList = front ++ b :: back ∧ b.summaryFor? id = some summary ∧
        ∀ b' ∈ back, b'.summaryFor? id = none := by
  rw [lookup_ofText, List.getLast?_filterMap, List.findSome?_eq_some_iff]
  constructor
  · rintro ⟨back, b, front, heq, hb, hback⟩
    refine ⟨front.reverse, b, back.reverse, ?_, hb, fun b' hb' => ?_⟩
    · rw [← List.reverse_reverse (blocks content.toList), heq]
      simp
    · exact hback b' (List.mem_reverse.mp hb')
  · rintro ⟨front, b, back, heq, hb, hback⟩
    refine ⟨back.reverse, b, front.reverse, ?_, hb, fun b' hb' => ?_⟩
    · rw [heq]
      simp
    · exact hback b' (List.mem_reverse.mp hb')

theorem summaryFor?_eq_some_iff {b : MemberBlock} {id summary : String} :
    b.summaryFor? id = some summary ↔ b.id = id ∧
      ∃ text, IsSummary b.body text ∧ IsNormalFormOf text summary := by
  simp only [isNormalFormOf_iff]
  rw [MemberBlock.summaryFor?]
  split
  · next h =>
      rw [Option.map_eq_some_iff, and_iff_right h]
      constructor
      · rintro ⟨cs, hcs, rfl⟩
        obtain ⟨text, htext, rfl⟩ := summary?_eq_some_iff.mp hcs
        exact ⟨text, htext, rfl⟩
      · rintro ⟨text, htext, rfl⟩
        exact ⟨_, summary?_eq_some_iff.mpr ⟨text, htext, rfl⟩, rfl⟩
  · next h => exact iff_of_false nofun fun hid => h hid.1

theorem summaryFor?_eq_none_iff {b : MemberBlock} {id : String} :
    b.summaryFor? id = none ↔ (b.id = id → ¬ HasSummary b.body) := by
  rw [MemberBlock.summaryFor?]
  split
  · next h => rw [Option.map_eq_none_iff, summary?_eq_none_iff, forall_prop_of_true h]
  · next h => exact iff_of_true rfl fun hid => absurd hid h

/-- The members that are documented are those of which a block has a summary. -/
theorem mem_keys_ofText_iff {content id : String} :
    id ∈ (Members.ofText content).map Prod.fst ↔
      ∃ b ∈ blocks content.toList, b.id = id ∧ HasSummary b.body := by
  have hsummary (b : MemberBlock) : b.summaryFor? id ≠ none ↔ b.id = id ∧ HasSummary b.body := by
    rw [ne_eq, summaryFor?_eq_none_iff, Classical.not_imp, not_not]
  constructor
  · intro hid
    obtain ⟨⟨_, summary⟩, hmem, rfl⟩ := List.mem_map.mp hid
    have hlookup := lookup_of_mem (nodup_ofText content) hmem
    obtain ⟨front, b, back, hblocks, hb, -⟩ := lookup_ofText_eq_some_iff.mp hlookup
    refine ⟨b, ?_, (hsummary b).mp (by rw [hb]; exact nofun)⟩
    rw [hblocks]
    exact List.mem_append_right front List.mem_cons_self
  · rintro ⟨b, hb, hsaid⟩
    cases hlookup : (Members.ofText content).lookup id with
    | some summary => exact List.mem_map.mpr ⟨_, mem_of_lookup hlookup, rfl⟩
    | none =>
        rw [lookup_ofText, List.getLast?_eq_none_iff, List.filterMap_eq_nil_iff] at hlookup
        exact absurd (hlookup b hb) ((hsummary b).mpr hsaid)

/-- What a text documents is normal. -/
theorem isNormal_of_mem_ofText {content : String} {p : String × String}
    (h : p ∈ Members.ofText content) : IsNormal p.2 := by
  obtain ⟨front, b, back, -, hb, -⟩ :=
    lookup_ofText_eq_some_iff.mp (lookup_of_mem (nodup_ofText content) h)
  obtain ⟨-, text, -, htext⟩ := summaryFor?_eq_some_iff.mp hb
  rw [htext.eq]
  exact isNormal_normalizeBlanks text

/-- **Reading undoes writing.** The text that is written as blocks with other text around them
documents each member once, with the normal form of the summary in the last of its blocks that has
one; and a member of which no block has a summary is not documented. Whatever a text is, all that
it documents is normal. -/
theorem ofText_written :
    (∀ d : Written, ((Members.ofText d.content).map Prod.fst).Nodup ∧
      ∀ id, (id ∈ (Members.ofText d.content).map Prod.fst ↔
          ∃ b ∈ d.blocks, b.id = id ∧ HasSummary b.body) ∧
        ∀ summary, (Members.ofText d.content).lookup id = some summary ↔
          ∃ front b back, d.blocks = front ++ b :: back ∧ b.id = id ∧
            (∃ text, IsSummary b.body text ∧ IsNormalFormOf text summary) ∧
            ∀ b' ∈ back, b'.id = id → ¬ HasSummary b'.body) ∧
    ∀ content, ∀ p ∈ Members.ofText content, IsNormal p.2 := by
  refine ⟨fun d => ⟨nodup_ofText _, fun id => ⟨?_, fun summary => ?_⟩⟩, fun _ _ =>
    isNormal_of_mem_ofText⟩
  · rw [mem_keys_ofText_iff, d.blocks_content]
  · simp only [lookup_ofText_eq_some_iff, d.blocks_content, summaryFor?_eq_some_iff,
      summaryFor?_eq_none_iff, and_assoc]

/-- Two blocks about one member, of which the later one has no summary. -/
def addTwice : Written where
  first := ⟨"<doc>".toList, fun _ _ h => absurd h.length_le (by simp)⟩
  rest := [
    ({ block := ⟨"M:Add".toList, "<summary> Adds\n two </summary>".toList⟩
       gap := [' ']
       tail := []
       name_ne_nil := by simp
       name_quote := by decide
       body_end := (splitAtFirst?_eq_none_iff (by simp)).mp rfl
       gap_ne_nil := by simp
       gap_blank := List.forall_mem_singleton.mpr rfl
       tail_blank := nofun }, ⟨[], fun _ _ h => absurd h.length_le (by simp)⟩),
    ({ block := ⟨"M:Add".toList, "<summary>".toList⟩
       gap := ['\n']
       tail := [' ']
       name_ne_nil := by simp
       name_quote := by decide
       body_end := (splitAtFirst?_eq_none_iff (by simp)).mp rfl
       gap_ne_nil := by simp
       gap_blank := List.forall_mem_singleton.mpr rfl
       tail_blank := List.forall_mem_singleton.mpr rfl },
      ⟨[], fun _ _ h => absurd h.length_le (by simp)⟩)]

/-- The summary of the earlier block stays, with its blanks normalized, and no other member is
documented. -/
theorem addTwice_documents :
    (Members.ofText addTwice.content).lookup "M:Add" = some "Adds two" ∧
      ∀ id, id ∈ (Members.ofText addTwice.content).map Prod.fst ↔ id = "M:Add" := by
  obtain ⟨-, hdocuments⟩ := ofText_written.1 addTwice
  have hsummary : IsSummary "<summary> Adds\n two </summary>".toList " Adds\n two ".toList :=
    ⟨[], [], rfl, (splitAtFirst?_eq_none_iff (by simp)).mp rfl,
      (splitAtFirst?_eq_none_iff (by simp)).mp rfl⟩
  have hnone : ¬ HasSummary "<summary>".toList := summary?_eq_none_iff.mp rfl
  have hnames : ∀ b ∈ addTwice.blocks, b.id = "M:Add" := by decide
  refine ⟨?_, fun id => (hdocuments id).1.trans ⟨?_, ?_⟩⟩
  · refine ((hdocuments "M:Add").2 "Adds two").mpr ⟨[], _, [_], rfl, rfl,
      ⟨_, hsummary, isNormalFormOf_iff.mpr (by decide)⟩, fun b hb _ => ?_⟩
    rw [List.mem_singleton.mp hb]
    exact hnone
  · rintro ⟨b, hb, rfl, -⟩
    exact hnames b hb
  · rintro rfl
    exact ⟨_, List.mem_cons_self, rfl, [], " Adds\n two ".toList, [], rfl⟩

end Documentation

end ScriptSessions
