import ScriptSessions.Proofs.Host.References

set_option autoImplicit false

/-! # The names that a session sees

A host is asked whether a session sees a module of some name (`Host.hasReference`), and a session
lists the references that it sees (`Session.references`). The two need not agree. A directive
reference answers to the simple name of its module. A default reference is kept under its simple
name *stripped again*, and answers to that: a module `lib.dll.dll` has the simple name `lib.dll`,
and as a default reference it is found as `lib`.

`hasReference_agrees_iff` says when the two agree on every name: whenever what is left to strip of
the names of the default references makes no difference. That is so if nothing is left to strip
(`hasReference_agrees`).
-/

namespace ScriptSessions

open Reference

/-- A default reference answers to its simple name stripped once more. -/
theorem Reference.DefaultSet.Built.containsName_iff {c : Cache} {s : DefaultSet} (h : s.Built c)
    (name : String) :
    s.containsName name = true ↔ ∃ e ∈ s.references, nameKey e.name = nameKey name := by
  rw [DefaultSet.containsName, DefaultSet.get?, Option.isSome_iff_exists]
  constructor
  · rintro ⟨e, he⟩
    have hmem := mem_of_lookup he
    exact ⟨e, List.mem_map.mpr ⟨_, hmem, rfl⟩, (h.keyed _ hmem).symm⟩
  · rintro ⟨e, he, hname⟩
    obtain ⟨⟨key, e'⟩, hp, (rfl : e' = e)⟩ := List.mem_map.mp he
    have hkey : key = nameKey e'.name := h.keyed _ hp
    cases hlookup : s.table.lookup (nameKey name) with
    | some found => exact ⟨found, rfl⟩
    | none =>
        have hne := List.lookup_eq_none_iff.mp hlookup _ hp
        simp [hkey, hname] at hne

namespace LiveHost

variable {S : Setting} {config : Config} {overrides : List (String × String)} {L : LiveHost}
  {id : Uuid} {n : SessionNumber} {s : Session}

/-- What a host answers when it is asked for a name. -/
theorem Kept.hasReference_iff (h : L.Kept S) (isOpen : L.host.workspace.open? id = some (n, s))
    (name : String) : L.host.hasReference id name = true ↔
      (∃ e ∈ s.findings.references, Text.foldAscii e.name = nameKey name) ∨
        ∃ e ∈ L.host.defaults.references, nameKey e.name = nameKey name := by
  have hget : L.host.get? id = some s := by rw [Host.get?, isOpen, Option.map_some]
  have hdirective : s.hasDirectiveReference name = true ↔
      ∃ e ∈ s.findings.references, Text.foldAscii e.name = nameKey name := by
    rw [Session.hasDirectiveReference, List.any_eq_true]
    simp only [matchesName_iff, Entry.name]
  rw [Host.hasReference, hget]
  show (s.hasDirectiveReference name || L.host.defaults.containsName name) = true ↔ _
  rw [Bool.or_eq_true, hdirective, show L.host.defaults.containsName name = true ↔ _ from
    h.defaults.containsName_iff name]
  exact Iff.rfl

/-- When a session lists a reference that matches a name. -/
theorem Kept.exists_matchesName_iff (h : L.Kept S)
    (at_n : L.host.workspace.session? n = some s) (name : String) :
    (∃ e ∈ s.references L.host.defaults, e.module.matchesName name = true) ↔
      (∃ e ∈ s.findings.references, Text.foldAscii e.name = nameKey name) ∨
        ∃ e ∈ L.host.defaults.references, Text.foldAscii e.name = nameKey name := by
  simp only [matchesName_iff, h.mem_references at_n]
  constructor
  · rintro ⟨e, hdefault | hfound, hname⟩
    · exact .inr ⟨e, hdefault, hname⟩
    · exact .inl ⟨e, hfound, hname⟩
  · rintro (⟨e, hfound, hname⟩ | ⟨e, hdefault, hname⟩)
    · exact ⟨e, .inr hfound, hname⟩
    · exact ⟨e, .inl hdefault, hname⟩

/-- **When the host and a session agree on names.** In any run of any host, the host answers for
an open session as its list of references does, on every name, if and only if for each default
reference two things hold: its simple name is that of a directive reference, or the stripped name
of a default one; and its stripped name is the simple name of some reference of the session. -/
theorem hasReference_agrees_iff (reachable : L.Reachable S config overrides)
    (isOpen : L.host.workspace.open? id = some (n, s)) :
    (∀ name, L.host.hasReference id name = true ↔
      ∃ e ∈ s.references L.host.defaults, e.module.matchesName name = true) ↔
    ∀ e ∈ L.host.defaults.references,
      ((∃ e' ∈ s.findings.references, Text.foldAscii e'.name = Text.foldAscii e.name) ∨
        ∃ e' ∈ L.host.defaults.references, nameKey e'.name = Text.foldAscii e.name) ∧
      ∃ e' ∈ s.references L.host.defaults, Text.foldAscii e'.name = nameKey e.name := by
  have kept := reachable.kept
  have at_n := (Workspace.open?_eq_some isOpen).2
  have hhost := kept.hasReference_iff isOpen
  have hlist := kept.exists_matchesName_iff at_n
  simp only [matchesName_iff] at hlist ⊢
  constructor
  · intro hagree e he
    constructor
    · -- ask for the simple name of the reference in full
      have hname := (hagree (e.name ++ ".ni.dll")).mpr
        ((hlist _).mpr (.inr ⟨e, he, (nameKey_append e.name).symm⟩))
      rw [hhost, nameKey_append] at hname
      exact hname
    · -- ask for the name under which the reference is kept
      exact (hagree e.name).mp ((hhost _).mpr (.inr ⟨e, he, rfl⟩))
  · intro hagree name
    constructor
    · intro hname
      rcases (hhost name).mp hname with hfound | ⟨e, he, hkey⟩
      · exact (hlist name).mpr (.inl hfound)
      · rw [← hkey]
        exact (hagree e he).2
    · intro hname
      rcases (hlist name).mp hname with hfound | ⟨e, he, hkey⟩
      · exact (hhost name).mpr (.inl hfound)
      · rw [hhost, ← hkey]
        exact (hagree e he).1

/-- The files with one library. -/
def onlyLibrary (path : String) : World := (default : World).putFile ⟨path⟩ (.text "")

/-- All sessions see the library. -/
def libraryConfig (path : String) : Config :=
  { extraReferences := [path], reprocessOnOpen := false }

/-- A host whose sessions all see the library, with one open session. -/
def withDefault (path : String) : LiveHost :=
  atWork (onlyLibrary path) (libraryConfig path) "1 + 1" 0

theorem reachable_withDefault (path : String) :
    (withDefault path).Reachable
      (.only (onlyLibrary path) (libraryConfig path).searchDirectories fun _ => True)
      (libraryConfig path) [] :=
  reachable_atWork (onlyLibrary path) (libraryConfig path) "1 + 1" 0

/-- For a library `lib.dll` the host and the session agree on every name. -/
theorem lib_agrees :
    ∃ s, (withDefault "/lib.dll").host.workspace.open? .nil = some (0, s) ∧
      ∀ name, (withDefault "/lib.dll").host.hasReference .nil name = true ↔
        ∃ e ∈ s.references (withDefault "/lib.dll").host.defaults,
          e.module.matchesName name = true := by
  have hopen : ((withDefault "/lib.dll").host.workspace.open? .nil).map Prod.fst = some 0 := by
    decide +kernel
  obtain ⟨⟨n, s⟩, isOpen, (rfl : n = 0)⟩ := Option.map_eq_some_iff.mp hopen
  have hnames : (withDefault "/lib.dll").host.defaults.references.map Entry.name = ["lib"] := by
    decide +kernel
  refine ⟨s, isOpen, (hasReference_agrees_iff (reachable_withDefault _) isOpen).mpr fun e he => ?_⟩
  have hname : e.name = "lib" := by
    have hmem := List.mem_map_of_mem (f := Entry.name) he
    rw [hnames] at hmem
    exact List.mem_singleton.mp hmem
  have hkey : nameKey e.name = Text.foldAscii e.name := by rw [hname]; decide
  refine ⟨.inr ⟨e, he, hkey⟩, e, ?_, hkey.symm⟩
  exact ((reachable_withDefault _).kept.mem_references
    (Workspace.open?_eq_some isOpen).2).mpr (.inl he)

/-- For a library `lib.dll.dll` they do not: the session lists it, and the host does not know its
name. -/
theorem stacked_disagrees :
    (withDefault "/lib.dll.dll").Reachable
      (.only (onlyLibrary "/lib.dll.dll") (libraryConfig "/lib.dll.dll").searchDirectories
        fun _ => True) (libraryConfig "/lib.dll.dll") [] ∧
    ∃ s, (withDefault "/lib.dll.dll").host.workspace.open? .nil = some (0, s) ∧
      ¬ ((withDefault "/lib.dll.dll").host.hasReference .nil "lib.dll.dll" = true ↔
        ∃ e ∈ s.references (withDefault "/lib.dll.dll").host.defaults,
          e.module.matchesName "lib.dll.dll" = true) := by
  have hopen : ((withDefault "/lib.dll.dll").host.workspace.open? .nil).map (fun p =>
      (p.1, (p.2.references (withDefault "/lib.dll.dll").host.defaults).any
        (·.module.matchesName "lib.dll.dll"))) = some (0, true) := by decide +kernel
  have hhost : (withDefault "/lib.dll.dll").host.hasReference .nil "lib.dll.dll" = false := by
    decide +kernel
  obtain ⟨⟨n, s⟩, isOpen, hlisted⟩ := Option.map_eq_some_iff.mp hopen
  obtain ⟨rfl, hlisted⟩ := Prod.mk.inj hlisted
  refine ⟨reachable_withDefault _, s, isOpen, fun hagree => ?_⟩
  rw [hhost] at hagree
  exact Bool.false_ne_true (hagree.mpr (List.any_eq_true.mp hlisted))

/-- The host and a session agree on names if nothing is left to strip of the simple names of the
default references. -/
theorem hasReference_agrees (reachable : L.Reachable S config overrides)
    (isOpen : L.host.workspace.open? id = some (n, s))
    (stripped : ∀ e ∈ L.host.defaults.references, stripSuffixes e.name = e.name) (name : String) :
    L.host.hasReference id name = true ↔
      ∃ e ∈ s.references L.host.defaults, e.module.matchesName name = true := by
  have kept := reachable.kept
  rw [kept.hasReference_iff isOpen,
    kept.exists_matchesName_iff (Workspace.open?_eq_some isOpen).2]
  have hkey : ∀ e ∈ L.host.defaults.references, nameKey e.name = Text.foldAscii e.name :=
    fun e he => by rw [nameKey, stripped e he]
  refine or_congr_right (exists_congr fun e => and_congr_right fun he => ?_)
  rw [hkey e he]

end LiveHost

end ScriptSessions
