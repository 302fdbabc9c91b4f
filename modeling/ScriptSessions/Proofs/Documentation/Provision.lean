import ScriptSessions.Proofs.Documentation.FirstLookup
import ScriptSessions.Proofs.Reference.Names
import ScriptSessions.Proofs.World

set_option autoImplicit false

/-! # What users of the documentation can rely on

However calls and lookups take turns, and whatever happens to the files meanwhile, a desk is in
order (`Desk.Orderly`): there is one provider for a key, chosen by the call that came first to
insert it, and all lookups of a provider come to the members of one reading of its file. What a call
or a lookup has come to, it keeps (`Desk.orderly_run`).
-/

namespace ScriptSessions.Documentation

/-- A key without a file name has no candidates. It does not lead to a regular file either, so no
sibling is passed by. -/
theorem isFile_key {cwd path : Path} (nameless : (key cwd path).fileName? = none) (w : World) :
    w.isFile (key cwd path) = false := by
  by_cases hempty : path.text = ""
  · have hkey : key cwd path = path := by rw [key, if_pos hempty]
    have hlocate : w.locate path = .error .missing := by
      rw [World.locate, hempty, if_neg (by decide), if_pos rfl]
    rw [hkey]
    simp [World.isFile, World.examine, hlocate]
  · refine World.isFile_of_fileName? ?_ nameless w
    have habsolute (names : List String) : (Path.ofNames names).isAbsolute = true := by
      simp [Path.isAbsolute, Path.ofNames, String.toList_append]
    rw [key, if_neg hempty]
    dsimp only
    split
    · exact habsolute _
    · exact habsolute _

/-- The key of a module is the file beside it with the extension `xml`. -/
theorem key_of_names {cwd path : Path} {front : List String} {stem ext : String}
    (spelled : path.text ≠ "") (names : Path.names cwd path = front ++ [stem ++ "." ++ ext])
    (stem_ne_empty : stem ≠ "") (stem_ne_dot : stem ≠ ".") (undotted : '.' ∉ ext.toList) :
    key cwd path = .ofNames (front ++ [stem ++ ".xml"]) := by
  have hsplit := Path.splitExtension?_eq_some_iff.mpr ⟨rfl, stem_ne_empty, undotted⟩
  have hxml : Path.withExtension (stem ++ "." ++ ext) "xml" = stem ++ ".xml" := by
    rw [Path.withExtension, hsplit]
    dsimp only
    rw [if_neg stem_ne_dot, String.append_assoc]
    rfl
  rw [key, if_neg spelled, names]
  simp only [List.getLast?_append, List.getLast?_singleton, Option.some_or, List.dropLast_concat,
    hxml]

namespace Desk

/-- Everything that a desk relies on. -/
structure Sound (d : Desk) : Prop where
  kept : d.Kept
  referred : d.Referred
  exclusive : d.Exclusive
  truthful : d.Truthful
  first : ∀ p, d.Patient p → d.First p

theorem sound_new (directories : Directories) : (new directories).Sound where
  kept := kept_new directories
  referred := ⟨nofun, nofun⟩
  exclusive := ⟨.nil, nofun⟩
  truthful := ⟨nofun, nofun, nofun⟩
  first _ _ := ⟨nofun, nofun, nofun, Nat.zero_le 1, nofun⟩

theorem Sound.change {d d' : Desk} (h : d.Sound) {w : World} (hc : d.Change w d') : d'.Sound where
  kept := h.kept.change hc
  referred := h.referred.change h.kept hc
  exclusive := h.exclusive.change hc
  truthful := h.truthful.change h.exclusive hc
  first p hp := (h.first p (hp.of_change hc)).change h.kept h.referred h.exclusive hc hp

theorem sound_run (directories : Directories) (events : List (World × Action)) :
    ((new directories).run events).Sound :=
  run_induction (fun _ _ _ hc h => h.change hc) (sound_new directories) events

/-- All lookups of a provider that are over have come to the members of the reading `ρ`. If none was
given up, there was no other reading, and it was the first lookup that read. -/
structure ReadOnce (d : Desk) (p : Provider) (ρ : Reading) : Prop where
  reading : ρ ∈ d.readingsOf p
  members : ∀ l ∈ d.lookups, l.provider = p → ∀ m, l.members? = some m → m = ρ.members
  single : d.Patient p → d.readingsOf p = [ρ] ∧ d.begun.lookup p = some ρ.lookup

/-- A provider of which a lookup is over has been read for all its lookups. -/
theorem Sound.exists_reading {d : Desk} (h : d.Sound) {l : Lookup} (hl : l ∈ d.lookups)
    {m : Members} (hm : l.members? = some m) : ∃ ρ, d.ReadOnce l.provider ρ := by
  have hknown := h.truthful.finished l hl m hm
  obtain ⟨ρ, hρ, hid, hmembers⟩ := h.truthful.known l.provider.id m hknown
  have hprovider : ρ.provider = l.provider := by
    obtain ⟨key, hkey⟩ := h.referred.readings ρ hρ
    obtain ⟨key', hkey'⟩ := h.referred.lookups l hl
    exact h.kept.tidy.eq_of_id hkey hkey' hid
  have hmem : ρ ∈ d.readingsOf l.provider := List.mem_filter.mpr ⟨hρ, decide_eq_true hprovider⟩
  refine ⟨ρ, hmem, fun o ho hp m' hm' => ?_, fun hpatient => ?_⟩
  · have hknown' := h.truthful.finished o ho m' hm'
    rw [hp, hknown] at hknown'
    rw [← hmembers, Option.some.inj hknown']
  · have hfirst := h.first l.provider hpatient
    refine ⟨?_, (hfirst.reader ρ hmem).1⟩
    obtain ⟨ρ', hsingle⟩ :=
      List.length_eq_one_iff.mp (Nat.le_antisymm hfirst.once (List.length_pos_of_mem hmem))
    rw [hsingle] at hmem ⊢
    rw [List.mem_singleton.mp hmem]

/-- The order that calls and lookups find at a desk. -/
structure Orderly (d : Desk) : Prop where
  /-- Calls of one key return one provider. -/
  agree : ∀ q ∈ d.inquiries, ∀ q' ∈ d.inquiries, q.key? = q'.key? →
    ∀ p p', q.provider? = some p → q'.provider? = some p' → p = p'
  /-- Calls of different keys return different providers, or the empty one. -/
  apart : ∀ q ∈ d.inquiries, ∀ q' ∈ d.inquiries, q.key? ≠ q'.key? →
    ∀ p p', q.provider? = some p → q'.provider? = some p' → p.id = p'.id →
      p = .empty ∧ p' = .empty
  /-- There are as many providers as keys for which a call is over. -/
  size : d.registry.size = d.completedKeys.dedup.length
  /-- A provider is the choice of the call of its key that came first to the insertion. -/
  chosen : ∀ q ∈ d.inquiries, ∀ p, q.provider? = some p →
    ∃ key i chooser, q.key? = some key ∧ d.Chose key i chooser p
  /-- A provider of which a lookup is over was read once for all. -/
  read : ∀ l ∈ d.lookups, l.members? ≠ none → ∃ ρ, d.ReadOnce l.provider ρ

theorem Sound.orderly {d : Desk} (h : d.Sound) : d.Orderly where
  agree _ hq _ hq' hkey _ _ hp hp' := h.kept.provider_eq hq hq' hkey hp hp'
  apart q hq q' hq' hkey p p' hp hp' hid := by
    obtain ⟨k, hk, hlookup⟩ := (h.kept.sound q hq).lookup hp
    obtain ⟨k', hk', hlookup'⟩ := (h.kept.sound q' hq').lookup hp'
    refine (h.kept.tidy.distinct k k' p p' hlookup hlookup' hid).resolve_right fun heq => ?_
    exact hkey (by rw [hk, hk', heq])
  size := h.kept.size_eq
  chosen q hq p hp := by
    obtain ⟨k, hk, hlookup⟩ := (h.kept.sound q hq).lookup hp
    obtain ⟨i, chooser, hchose⟩ := h.kept.chosen k p hlookup
    exact ⟨k, i, chooser, hk, hchose⟩
  read l hl hm := by
    obtain ⟨m, hm⟩ := Option.ne_none_iff_exists'.mp hm
    exact h.exists_reading hl hm

/-- In every run of a desk, whoever takes steps and whatever the files are at each of them, the
desk is in order, and a call that has returned a provider or a lookup that has found members
stays as it is, whatever comes later. If no lookup is given up in the run, then each provider that
was read was read once, by its first lookup. The directories stay the same throughout. The key of a
module whose file has an extension is the file beside it with the extension `xml`, and a key without
a file name, for which no file is looked at, leads to no file. -/
theorem orderly_run (directories : Directories) (events later : List (World × Action)) :
    let d := (new directories).run events
    d.Orderly ∧
      (∀ (i : Nat) (q : Inquiry) (p : Provider), d.inquiries[i]? = some q →
        q.provider? = some p → (d.run later).inquiries[i]? = some q) ∧
      (∀ (j : Nat) (l : Lookup) (m : Members), d.lookups[j]? = some l →
        l.members? = some m → (d.run later).lookups[j]? = some l) ∧
      ((∀ e ∈ events, ∀ j, e.2 ≠ .leave j) → ∀ p, d.Patient p) ∧
      d.registry.directories = directories ∧
      (∀ (cwd path : Path) (front : List String) (stem ext : String), path.text ≠ "" →
        Path.names cwd path = front ++ [stem ++ "." ++ ext] → stem ≠ "" → stem ≠ "." →
        '.' ∉ ext.toList → key cwd path = .ofNames (front ++ [stem ++ ".xml"])) ∧
      ∀ cwd path, (key cwd path).fileName? = none →
        ∀ w : World, w.isFile (key cwd path) = false := by
  refine ⟨(sound_run directories events).orderly, fun i q p hi hp => inquiry_run hi hp later,
    fun j l m hj hm => lookup_run hj hm later, fun hstay p l hl _ => patient_run hstay l hl,
    directories_run directories events, fun _ _ _ _ _ => key_of_names, fun _ _ => isFile_key⟩

/-- The directories of a platform with reference documentation. -/
def docsOnly : Directories := { documentation := some ⟨"/docs"⟩ }

/-- The documentation of a tool, in the documentation directory. -/
def toolDocs : World := (default : World).putFile ⟨"/docs/Tool.xml"⟩ (.text "")

/-- The documentation of the tool has been written beside it as well. -/
def toolSibling : World := toolDocs.putFile ⟨"/lib/Tool.xml"⟩
  (.text "<member name=\"T:Tool\"><summary> Builds\n all. </summary></member>")

/-- Two calls of one key race: the one that comes first finds only the file in the documentation
directory, but the other one, which finds a sibling that has just been written, is the first to
insert. Then two lookups race, and after the first of them has read the sibling is gone. -/
def race : List (World × Action) :=
  [(toolDocs, .inquire ⟨"/lib/Tool.dll"⟩), (toolDocs, .inquire ⟨"/lib/Tool.exe"⟩),
    (toolDocs, .advance 0), (toolDocs, .advance 1), (toolDocs, .advance 0), (toolDocs, .advance 0),
    (toolSibling, .advance 1), (toolSibling, .advance 1), (toolSibling, .advance 0),
    (toolSibling, .ask 0), (toolSibling, .ask 1), (toolSibling, .turn 0), (toolSibling, .turn 0),
    (toolDocs, .turn 1), (toolDocs, .turn 0), (toolDocs, .turn 1)]

/-- Both calls return the sibling, and both lookups come to what the first of them read of it. -/
theorem race_orderly :
    ((new docsOnly).run race).Orderly ∧
    ((new docsOnly).run race).inquiries.map Inquiry.provider?
      = [some ⟨1, some ⟨"/lib/Tool.xml"⟩⟩, some ⟨1, some ⟨"/lib/Tool.xml"⟩⟩] ∧
    ((new docsOnly).run race).lookups.map Lookup.members?
      = [some [("T:Tool", "Builds all.")], some [("T:Tool", "Builds all.")]] ∧
    ∃ ρ, ((new docsOnly).run race).readingsOf ⟨1, some ⟨"/lib/Tool.xml"⟩⟩ = [ρ] ∧
      ρ.lookup = 0 := by
  obtain ⟨horderly, -, -, hpatient, -⟩ := orderly_run docsOnly race []
  have hfirst : ((new docsOnly).run race).lookups[0]?
      = some ⟨⟨1, some ⟨"/lib/Tool.xml"⟩⟩, .finished [("T:Tool", "Builds all.")]⟩ := by
    decide +kernel
  have hbegun : ((new docsOnly).run race).begun.lookup ⟨1, some ⟨"/lib/Tool.xml"⟩⟩ = some 0 := by
    decide +kernel
  obtain ⟨ρ, hρ⟩ := horderly.read _ (List.mem_of_getElem? hfirst) (Option.some_ne_none _)
  obtain ⟨hsingle, hreader⟩ := hρ.single (hpatient (by simp [race]) _)
  rw [hbegun] at hreader
  exact ⟨horderly, by decide +kernel, by decide +kernel, ρ, hsingle, (Option.some.inj hreader).symm⟩

end Desk

end ScriptSessions.Documentation
