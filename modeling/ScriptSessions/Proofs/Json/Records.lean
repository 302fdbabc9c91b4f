import ScriptSessions.CommandLine.Run
import ScriptSessions.Proofs.Json.Values

set_option autoImplicit false

/-! # Records are read back

A way to write values and a way to read them fit together (`Json.Lossless`) if what is written is
exact and is read as the value it was written for. Fitting pairs are put together like the records
themselves: a list fits if its items do (`Lossless.list`), a value that may be missing fits if no
value is written as `null` (`Lossless.option`), and a record fits if its fields do, because every
field is found under its own name (`Json.fields?_ofMembers`). A fitting pair survives the way over
a text (`Lossless.ofText?_render`), so all records do.
-/

namespace ScriptSessions

/-! ## Identifiers -/

namespace Uuid

theorem ofPlain?_map_hexDigit (u : Uuid) : ofPlain? (u.digits.map Text.hexDigit) = some u := by
  rw [ofPlain?, Text.hexValues?_map_hexDigit]
  exact dif_pos u.length_digits

/-- The hyphens stand between the groups and nowhere else. -/
theorem ofHyphenated?_groups {a b c d e : List Char} (ha : a.length = 8) (hb : b.length = 4)
    (hc : c.length = 4) (hd : d.length = 4) (he : e.length = 12) :
    ofHyphenated? (a ++ '-' :: b ++ '-' :: c ++ '-' :: d ++ '-' :: e)
      = ofPlain? (a ++ b ++ c ++ d ++ e) := by
  simp [ofHyphenated?, List.drop_append, ha, hb, hc, hd, he, List.drop_of_length_le]

/-- No digit begins one of the other spellings. -/
theorem hexDigit_ne (d : Fin 16) : Text.hexDigit d ≠ '{' ∧ Text.hexDigit d ≠ 'u' := by
  revert d
  decide

theorem ofText?_toText (u : Uuid) : ofText? u.toText = some u := by
  have hread : ofHyphenated? u.toText.toList = some u := by
    rw [toText, String.toList_ofList, ofHyphenated?_groups, ← List.take_add, ← List.take_add,
      ← List.take_add, List.take_append_drop, ofPlain?_map_hexDigit] <;>
      simp [u.length_digits]
  have hlength : u.toText.toList.length = 36 := by
    by_contra hlength
    rw [ofHyphenated?, if_neg fun h => hlength h.1] at hread
    cases hread
  obtain ⟨d, ds, hdigits⟩ : ∃ d ds, u.digits = d :: ds :=
    List.exists_cons_of_ne_nil fun hnil => by simpa [hnil] using u.length_digits
  obtain ⟨cs, hcs⟩ : ∃ cs, u.toText.toList = Text.hexDigit d :: cs := by
    rw [toText, String.toList_ofList, hdigits]
    exact ⟨_, rfl⟩
  unfold ofText?
  split
  · next heq => exact absurd (List.cons.inj (hcs.symm.trans heq)).1 (hexDigit_ne d).1
  · next heq => exact absurd (List.cons.inj (hcs.symm.trans heq)).1 (hexDigit_ne d).2
  · rw [if_neg (by omega), hread]

end Uuid

/-! ## Fields -/

namespace Json

/-- A name stands for one member if no name is given twice. -/
theorem filter_name_eq {members : List (String × Json)} (nodup : (members.map Prod.fst).Nodup)
    {m : String × Json} (hm : m ∈ members) : members.filter (·.1 == m.1) = [m] := by
  induction members with
  | nil => cases hm
  | cons next members ih =>
      rw [List.map_cons, List.nodup_cons] at nodup
      rcases List.mem_cons.mp hm with rfl | hrest
      · have hnone : members.filter (·.1 == m.1) = [] := by
          refine List.filter_eq_nil_iff.mpr fun other hother heq => nodup.1 ?_
          rw [← eq_of_beq heq]
          exact List.mem_map_of_mem hother
        rw [List.filter_cons, if_pos (beq_self_eq_true m.1), hnone]
      · have hne : ¬ (next.1 == m.1) = true := fun heq =>
          nodup.1 (eq_of_beq heq ▸ List.mem_map_of_mem hrest)
        rw [List.filter_cons, if_neg hne, ih nodup.2 hrest]

theorem membersFor?_map {members : List (String × Json)} (nodup : (members.map Prod.fst).Nodup) :
    membersFor? (members.map Prod.fst) (members.map fun m => (some m.1, m.2))
      = some (members.map fun m => some m.2) := by
  have hnames : (members.map fun m => (some m.1, m.2)).mapM
      (fun m : Option String × Json => m.1.map (·, m.2)) = some members :=
    mapM_map_eq_self fun _ _ => rfl
  rw [membersFor?, hnames, Option.bind_eq_bind, Option.bind_some]
  refine mapM_map_eq_map fun m hm => ?_
  simp only [filter_name_eq nodup hm]

/-- **Every field is found under its own name.** -/
theorem fields?_ofMembers {members : List (String × Json)}
    (nodup : (members.map Prod.fst).Nodup) :
    fields? (members.map Prod.fst) (ofMembers members) = some (members.map fun m => some m.2) :=
  membersFor?_map nodup

theorem defaultedFields?_ofMembers {members : List (String × Json)}
    (nodup : (members.map Prod.fst).Nodup) :
    defaultedFields? (members.map Prod.fst) (ofMembers members)
      = some (members.map fun m => some m.2) :=
  membersFor?_map nodup

/-! ## Writing and reading -/

/-- A way to write values and a way to read them that fit together: what is written is exact, and it
is read as the value it was written for. -/
structure Lossless {α : Type} (write : α → Json) (read : Json → Option α) : Prop where
  exact_write (a : α) : (write a).Exact
  read_write (a : α) : read (write a) = some a

/-- Records that are read back from the texts that are written for them. -/
def SurvivesText {α : Type} (write : α → Json) (read : Json → Option α) : Prop :=
  ∀ a, (ofText? (write a).render).bind read = some a

theorem lossless_string : Lossless .string string? := ⟨.string, fun _ => rfl⟩

theorem lossless_bool : Lossless .bool bool? := ⟨.bool, fun _ => rfl⟩

theorem lossless_word64 : Lossless (fun n : UInt64 => .natural n.toNat) word64? where
  exact_write n := .natural n.toNat
  read_write n := by simp [word64?, naturalBelow?, n.toNat_lt_size]

theorem lossless_byte : Lossless (fun n : UInt8 => .natural n.toNat) byte? where
  exact_write n := .natural n.toNat
  read_write n := by simp [byte?, naturalBelow?, n.toNat_lt_size]

section

variable {α : Type} {write : α → Json} {read : Json → Option α}

/-- A list survives if its items do. -/
theorem Lossless.list (h : Lossless write read) :
    Lossless (fun l => .array (l.map write)) (list? read) where
  exact_write l := .array fun j hj => by
    obtain ⟨a, _, rfl⟩ := List.mem_map.mp hj
    exact h.exact_write a
  read_write l := mapM_map_eq_self fun a _ => h.read_write a

/-- A value that may be missing survives if no value is written as a missing one. -/
theorem Lossless.option (h : Lossless write read) (present : ∀ a, write a ≠ .null) :
    Lossless (ofOption write) (option? read) where
  exact_write
    | none => .null
    | some a => h.exact_write a
  read_write
    | none => rfl
    | some a => by
        have hread : option? read (write a) = (read (write a)).map some := by
          unfold option?
          split
          · next heq => exact absurd heq (present a)
          · rfl
        rw [ofOption, hread, h.read_write, Option.map_some]

/-- A value is read back from its text, also if there is space after it. -/
theorem Lossless.ofText?_render (h : Lossless write read) (a : α) {space : String}
    (hspace : ∀ c ∈ space.toList, isSpace c = true) :
    (ofText? ((write a).render ++ space)).bind read = some a := by
  rw [Json.ofText?_render (h.exact_write a) hspace, Option.bind_some, h.read_write]

theorem Lossless.survivesText (h : Lossless write read) : SurvivesText write read := by
  intro a
  have hread : (ofText? ((write a).render ++ "")).bind read = some a := h.ofText?_render a nofun
  rwa [String.append_empty] at hread

end

end Json

/-! ## Records -/

open Json

theorem Path.lossless : Lossless toJson ofJson? := ⟨fun p => .string p.text, fun _ => rfl⟩

theorem Uuid.lossless : Lossless toJson ofJson? := ⟨fun u => .string u.toText, ofText?_toText⟩

theorem Severity.lossless : Lossless toJson ofJson? := ⟨fun s => .string s.label, ofLabel?_label⟩

theorem Diagnostic.lossless : Lossless toJson ofJson? where
  exact_write d := by
    refine .ofMembers ?_
    simp only [List.forall_mem_cons]
    exact ⟨.string _, Severity.lossless.exact_write _, .string _,
      (lossless_word64.option nofun).exact_write _, nofun⟩
  read_write d := by
    have hfields : fields? ["code", "severity", "message", "line"] d.toJson
        = some [some (.string d.code), some d.severity.toJson, some (.string d.message),
          some (ofOption (fun n => .natural n.toNat) d.line)] :=
      fields?_ofMembers (by simp)
    simp [ofJson?, hfields, required?, optional?, lossless_string.read_write,
      Severity.lossless.read_write, (lossless_word64.option nofun).read_write]

theorem DiagnosticsEvent.lossless : Lossless toJson ofJson? where
  exact_write e := by
    refine .ofMembers ?_
    simp only [List.forall_mem_cons]
    exact ⟨Uuid.lossless.exact_write _, .natural _, Diagnostic.lossless.list.exact_write _, nofun⟩
  read_write e := by
    have hfields : fields? ["session_id", "document_version", "diagnostics"] e.toJson
        = some [some e.sessionId.toJson, some (.natural e.documentVersion.toNat),
          some (.array (e.diagnostics.map Diagnostic.toJson))] :=
      fields?_ofMembers (by simp)
    simp [ofJson?, hfields, required?, Uuid.lossless.read_write, lossless_word64.read_write,
      Diagnostic.lossless.list.read_write]

theorem ReportedReference.lossless : Lossless toJson ofJson? where
  exact_write r := by
    refine .ofMembers ?_
    simp only [List.forall_mem_cons]
    exact ⟨.string _, Path.lossless.exact_write _, .bool _, nofun⟩
  read_write r := by
    have hfields : fields? ["name", "path", "documented"] r.toJson
        = some [some (.string r.name), some r.path.toJson, some (.bool r.documented)] :=
      fields?_ofMembers (by simp)
    simp [ofJson?, hfields, required?, lossless_string.read_write, Path.lossless.read_write,
      lossless_bool.read_write]

theorem CheckReport.lossless : Lossless toJson ofJson? where
  exact_write r := by
    refine .ofMembers ?_
    simp only [List.forall_mem_cons]
    exact ⟨Uuid.lossless.exact_write _, .string _, .natural _, lossless_string.list.exact_write _,
      ReportedReference.lossless.list.exact_write _, Path.lossless.list.exact_write _,
      Diagnostic.lossless.list.exact_write _, nofun⟩
  read_write r := by
    have hfields : fields? ["session_id", "project_name", "text_version", "directives",
          "references", "loaded_sources", "diagnostics"] r.toJson
        = some [some r.sessionId.toJson, some (.string r.projectName),
          some (.natural r.textVersion.toNat), some (.array (r.directives.map .string)),
          some (.array (r.references.map ReportedReference.toJson)),
          some (.array (r.loadedScripts.map Path.toJson)),
          some (.array (r.diagnostics.map Diagnostic.toJson))] :=
      fields?_ofMembers (by simp)
    simp [ofJson?, hfields, required?, Uuid.lossless.read_write, lossless_string.read_write,
      lossless_word64.read_write, lossless_string.list.read_write,
      ReportedReference.lossless.list.read_write, Path.lossless.list.read_write,
      Diagnostic.lossless.list.read_write]

theorem Reference.Module.lossless : Lossless toJson ofJson? where
  exact_write m := by
    refine .ofMembers ?_
    simp only [List.forall_mem_cons]
    exact ⟨.string _, Path.lossless.exact_write _, nofun⟩
  read_write m := by
    have hfields : fields? ["name", "path"] m.toJson
        = some [some (.string m.name), some m.path.toJson] :=
      fields?_ofMembers (by simp)
    simp [ofJson?, hfields, required?, lossless_string.read_write, Path.lossless.read_write]

theorem Documentation.Directories.lossless : Lossless toJson ofJson? where
  exact_write d := by
    refine .ofMembers ?_
    simp only [List.forall_mem_cons]
    exact ⟨(Path.lossless.option nofun).exact_write _, (Path.lossless.option nofun).exact_write _,
      nofun⟩
  read_write d := by
    have hfields : fields? ["reference_assemblies", "documentation"] d.toJson
        = some [some (ofOption Path.toJson d.referenceAssemblies),
          some (ofOption Path.toJson d.documentation)] :=
      fields?_ofMembers (by simp)
    simp [ofJson?, hfields, optional?, (Path.lossless.option nofun).read_write]

theorem CompilationOptions.lossless : Lossless toJson ofJson? where
  exact_write o := by
    refine .ofMembers ?_
    simp only [List.forall_mem_cons]
    exact ⟨.string _, .bool _, .bool _, .bool _, .natural _, nofun⟩
  read_write o := by
    have hfields : defaultedFields? fieldNames o.toJson
        = some [some (.string o.languageVersion), some (.bool o.optimize),
          some (.bool o.allowUnsafe), some (.bool o.checkOverflow),
          some (.natural o.warningLevel.toNat)] :=
      defaultedFields?_ofMembers (by simp)
    simp [ofJson?, hfields, orDefault?, lossless_string.read_write, lossless_bool.read_write,
      lossless_byte.read_write]

/-- **Records survive a round trip.** A report is read back from what a check puts out for it. From
the text that is written for it a report is read back as well, and so is an event, a diagnostic, a
module, a pair of directories of the platform and a set of compilation options. -/
theorem records_surviveText :
    (∀ r : CheckReport, (ofText? (CommandLine.checkOutcome true r).output).bind CheckReport.ofJson?
      = some r) ∧
    SurvivesText CheckReport.toJson CheckReport.ofJson? ∧
    SurvivesText DiagnosticsEvent.toJson DiagnosticsEvent.ofJson? ∧
    SurvivesText Diagnostic.toJson Diagnostic.ofJson? ∧
    SurvivesText Reference.Module.toJson Reference.Module.ofJson? ∧
    SurvivesText Documentation.Directories.toJson Documentation.Directories.ofJson? ∧
    SurvivesText CompilationOptions.toJson CompilationOptions.ofJson? := by
  refine ⟨fun r => ?_, CheckReport.lossless.survivesText, DiagnosticsEvent.lossless.survivesText,
    Diagnostic.lossless.survivesText, Reference.Module.lossless.survivesText,
    Documentation.Directories.lossless.survivesText, CompilationOptions.lossless.survivesText⟩
  exact CheckReport.lossless.ofText?_render r (List.forall_mem_singleton.mpr rfl)

end ScriptSessions
