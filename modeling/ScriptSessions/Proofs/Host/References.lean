import ScriptSessions.Proofs.Host.Live
import ScriptSessions.Proofs.Reference.Keys

set_option autoImplicit false

/-! # The references of a session

A session lists the default references, and after them those of its directives that are not among
them. Entries are compared as objects, and an object belongs to one key, so no key is listed
twice. Whether no *module* is listed twice is another question. The keys of bare names and the
keys of paths are kept apart, and a module that is found both ways has two entries.

This is the only way in which a module can be listed twice: `references_at_most_twice` says that
of two entries for one module one came from a bare name and the other from a path. What counts is
the place to which the path of a module leads, however it is spelled.
-/

namespace ScriptSessions

open Reference

/-! ## Adding entries to a list -/

namespace Findings

/-- Adding known entries adds all of them: an entry is left out only if it is there. -/
theorem mem_foldl_addEntry {c : Cache} (tidy : c.Tidy) {entries new : List Entry}
    (hentries : ∀ e ∈ entries, c.Knows e) (hnew : ∀ e ∈ new, c.Knows e) {e : Entry} :
    e ∈ new.foldl addEntry entries ↔ e ∈ entries ∨ e ∈ new := by
  induction new generalizing entries with
  | nil => simp
  | cons a rest ih =>
      have ha := hnew a List.mem_cons_self
      have hmem : ∀ x, x ∈ addEntry entries a ↔ x ∈ entries ∨ x = a := by
        intro x
        rw [addEntry]
        split
        · next hany =>
            obtain ⟨b, hb, hsame⟩ := List.any_eq_true.mp hany
            rw [(tidy.sameAs_iff (hentries b hb) ha).mp hsame] at hb
            constructor
            · exact .inl
            · rintro (hx | rfl)
              · exact hx
              · exact hb
        · rw [List.mem_append, List.mem_singleton]
      have hknown : ∀ x ∈ addEntry entries a, c.Knows x := by
        intro x hx
        rcases (hmem x).mp hx with hold | rfl
        · exact hentries x hold
        · exact ha
      rw [List.foldl_cons, ih hknown fun x hx => hnew x (List.mem_cons_of_mem a hx), hmem,
        List.mem_cons, or_assoc]

theorem nodup_foldl_addEntry {entries : List Entry} (h : entries.Nodup) (new : List Entry) :
    (new.foldl addEntry entries).Nodup := by
  induction new generalizing entries with
  | nil => exact h
  | cons a rest ih =>
      refine ih ?_
      rw [addEntry]
      split
      · exact h
      · next hany =>
          refine List.nodup_append.mpr ⟨h, List.nodup_cons.mpr ⟨List.not_mem_nil, .nil⟩, ?_⟩
          rintro x hx y hy rfl
          rw [List.mem_singleton.mp hy] at hx
          exact hany (List.any_eq_true.mpr ⟨a, hx, a.sameAs_refl⟩)

end Findings

namespace Reference

/-- No default reference is listed twice. -/
theorem DefaultSet.Built.nodup_references {c : Cache} {s : DefaultSet} (h : s.Built c) :
    s.references.Nodup := by
  rw [DefaultSet.references, List.Nodup, List.pairwise_map]
  have hkeys := h.nodup
  rw [List.Nodup, List.pairwise_map] at hkeys
  refine hkeys.imp_of_mem fun {p q} hp hq hne heq => hne ?_
  rw [h.keyed p hp, h.keyed q hq, heq]

theorem DefaultSet.Built.knows {c : Cache} {s : DefaultSet} (h : s.Built c) {e : Entry}
    (he : e ∈ s.references) : c.Knows e := by
  obtain ⟨p, hp, rfl⟩ := List.mem_map.mp he
  exact h.known p hp

end Reference

namespace LiveHost

variable {S : Setting} {config : Config} {overrides : List (String × String)} {L : LiveHost}
  {n : SessionNumber} {s : Session}

/-- The entries that a session has stored are known to the cache. -/
theorem Kept.knows_of_mem_findings (h : L.Kept S)
    (at_n : L.host.workspace.session? n = some s) {e : Entry} (he : e ∈ s.findings.references) :
    L.cache.Knows e :=
  h.known e (Workspace.mem_entries_of_session? at_n (List.mem_append_left _ he))

/-- The references of a session are the default ones and those that it has stored. -/
theorem Kept.mem_references (h : L.Kept S) (at_n : L.host.workspace.session? n = some s)
    {e : Entry} : e ∈ s.references L.host.defaults
      ↔ e ∈ L.host.defaults.references ∨ e ∈ s.findings.references :=
  Findings.mem_foldl_addEntry h.regular.tidy (fun _ he => h.defaults.knows he)
    fun _ he => h.knows_of_mem_findings at_n he

theorem Kept.knows_of_mem_references (h : L.Kept S)
    (at_n : L.host.workspace.session? n = some s) {e : Entry}
    (he : e ∈ s.references L.host.defaults) : L.cache.Knows e := by
  rcases (h.mem_references at_n).mp he with hdefault | hfound
  · exact h.defaults.knows hdefault
  · exact h.knows_of_mem_findings at_n hfound

end LiveHost

/-! ## Two ways to come to a module -/

namespace Reference.Cache

variable {S : Setting} {c : Cache} {flight : List Fetch} {e e' : Entry} {bare : Bool}

/-- Whether an entry came from a bare name (`bare = true`), or from a path: it is the entry of
such a location, which has been asked for and has led to its module. -/
def CameFrom (S : Setting) (c : Cache) (bare : Bool) (e : Entry) : Prop :=
  ∃ location, S.asked location ∧ isBareName (Text.trim location) = bare ∧
    c.get? S.directory location = some e ∧ S.Locates location (.ok e.path)

theorem Traced.cameFrom (h : c.Traced S flight) (known : c.Knows e) :
    ∃ bare, c.CameFrom S bare e := by
  obtain ⟨key, he⟩ := known
  obtain ⟨location, asked, hkey, hlocates⟩ := h.origin key e he
  exact ⟨_, location, asked, rfl, get?_of_entryAt? hkey he, hlocates⟩

/-- Two entries for modules at one place are the same entry if both came from bare names, or both
from paths. -/
theorem CameFrom.eq_of_place (h : c.CameFrom S bare e) (h' : c.CameFrom S bare e')
    (place : Path.names S.directory e.path = Path.names S.directory e'.path) : e = e' := by
  obtain ⟨location, -, hbare, hget, hlocates⟩ := h
  obtain ⟨location', -, hbare', hget', hlocates'⟩ := h'
  obtain ⟨key, hkey, he⟩ := get?_eq_some_iff.mp hget
  obtain ⟨key', hkey', he'⟩ := get?_eq_some_iff.mp hget'
  have hkeys : key = key' := by
    rw [(Key.normalize_eq_ok_iff.mp hkey).2, (Key.normalize_eq_ok_iff.mp hkey').2, hbare, hbare']
    cases bare with
    | true =>
        -- the last name on the way is the name of the file, which gives away the stripped name
        obtain ⟨d, hd⟩ := hlocates.exists_candidate hbare
        obtain ⟨d', hd'⟩ := hlocates'.exists_candidate hbare'
        have hlast := congrArg List.getLast? place
        rw [hd, hd', candidate, candidate,
          Path.getLast?_names_div _ _ (isName_moduleFileName hbare),
          Path.getLast?_names_div _ _ (isName_moduleFileName hbare')] at hlast
        rw [if_pos rfl, if_pos rfl, stripSuffixes_eq_of_moduleFileName (Option.some.inj hlast)]
    | false =>
        -- the path spells out the names from which the key was made
        rw [hlocates.eq_modulePath hbare, hlocates'.eq_modulePath hbare', modulePath, modulePath,
          Path.names_ofNames _ fun _ => Path.isName_of_mem_names,
          Path.names_ofNames _ fun _ => Path.isName_of_mem_names] at place
        rw [if_neg Bool.false_ne_true, if_neg Bool.false_ne_true, place]
  rw [hkeys, he'] at he
  exact (Option.some.inj he).symm

end Reference.Cache

/-! ## No module more than twice -/

/-- A list without repetitions has at most two elements, if they are of two kinds and no two of
one kind. -/
theorem length_le_two_of_kinds {α : Type} {kind : Bool → α → Prop} {l : List α} (h : l.Nodup)
    (kinds : ∀ a ∈ l, ∃ b, kind b a)
    (one : ∀ b, ∀ a ∈ l, ∀ a' ∈ l, kind b a → kind b a' → a = a') : l.length ≤ 2 := by
  match l with
  | [] | [_] | [_, _] => simp
  | x :: y :: z :: rest =>
      obtain ⟨b₁, hx⟩ := kinds x (by simp)
      obtain ⟨b₂, hy⟩ := kinds y (by simp)
      obtain ⟨b₃, hz⟩ := kinds z (by simp)
      have hpair : b₁ = b₂ ∨ b₁ = b₃ ∨ b₂ = b₃ := by
        cases b₁ <;> cases b₂ <;> cases b₃ <;> decide
      simp only [List.nodup_cons, List.mem_cons, not_or] at h
      rcases hpair with rfl | rfl | rfl
      · exact absurd (one b₁ x (by simp) y (by simp) hx hy) h.1.1
      · exact absurd (one b₁ x (by simp) z (by simp) hx hz) h.1.2.1
      · exact absurd (one b₂ y (by simp) z (by simp) hy hz) h.2.1.1

namespace LiveHost

variable {S : Setting} {config : Config} {overrides : List (String × String)} {L : LiveHost}
  {n : SessionNumber} {s : Session}

/-- **A module is listed at most twice.** In any run of any host, while files change as they will
and the current directory stays the same, two references of a session whose paths lead to one
place came from a bare name and from a path. So no module is listed more than twice, and not twice
under the same kind of location. -/
theorem references_at_most_twice (reachable : L.Reachable S config overrides) (still : S.Still)
    (at_n : L.host.workspace.session? n = some s) :
    ((s.references L.host.defaults).Pairwise fun e e' =>
      Path.names S.directory e.path = Path.names S.directory e'.path →
        ∃ bare, L.cache.CameFrom S bare e ∧ L.cache.CameFrom S (!bare) e') ∧
    ∀ place, ((s.references L.host.defaults).filter fun e =>
      Path.names S.directory e.path == place).length ≤ 2 := by
  have kept := reachable.kept
  have hnodup : (s.references L.host.defaults).Nodup :=
    Findings.nodup_foldl_addEntry kept.defaults.nodup_references s.findings.references
  have horigin : ∀ e ∈ s.references L.host.defaults, ∃ bare, L.cache.CameFrom S bare e :=
    fun e he => (kept.regular.traced still).cameFrom (kept.knows_of_mem_references at_n he)
  constructor
  · refine hnodup.imp_of_mem fun {e e'} he he' hne place => ?_
    obtain ⟨bare, hfrom⟩ := horigin e he
    obtain ⟨bare', hfrom'⟩ := horigin e' he'
    have hbare : bare' = !bare := by
      refine Bool.eq_not_of_ne fun heq => ?_
      subst heq
      exact hne (hfrom.eq_of_place hfrom' place)
    exact ⟨bare, hfrom, hbare ▸ hfrom'⟩
  · intro place
    refine length_le_two_of_kinds
      (hnodup.filter _) (fun e he => horigin e (List.mem_filter.mp he).1) ?_
    intro bare e he e' he' hfrom hfrom'
    refine hfrom.eq_of_place hfrom' ?_
    have hplace := (List.mem_filter.mp he).2
    have hplace' := (List.mem_filter.mp he').2
    rw [beq_iff_eq] at hplace hplace'
    rw [hplace, hplace']

/-- A library in a directory that is searched for bare names. -/
def withRuntimeLib : World := (default : World).putFile ⟨"/rt/lib.dll"⟩ (.text "")

/-- All sessions see the library by its bare name. -/
def runtimeConfig : Config :=
  { runtimeDirectory := some ⟨"/rt"⟩, extraReferences := ["lib"], reprocessOnOpen := false }

/-- A script asks for the library by its path. -/
def sharedLib : LiveHost := atWork withRuntimeLib runtimeConfig "#r \"rt/lib.dll\"" 20

/-- Only the files of `withRuntimeLib` are met, and everything may be asked for. -/
def runtimeSetting : Setting := .only withRuntimeLib runtimeConfig.searchDirectories fun _ => True

theorem reachable_sharedLib : sharedLib.Reachable runtimeSetting runtimeConfig [] :=
  reachable_atWork withRuntimeLib runtimeConfig "#r \"rt/lib.dll\"" 20

theorem sharedLib_paths : ∃ s, sharedLib.host.workspace.session? 0 = some s ∧
    (s.references sharedLib.host.defaults).map Entry.path
      = [⟨"/rt/lib.dll"⟩, ⟨"/rt/lib.dll"⟩] := by
  have hpaths : (sharedLib.host.workspace.session? 0).map
      (fun s => (s.references sharedLib.host.defaults).map Entry.path)
        = some [⟨"/rt/lib.dll"⟩, ⟨"/rt/lib.dll"⟩] := by decide +kernel
  exact Option.map_eq_some_iff.mp hpaths

/-- The two entries of the library in `sharedLib` came from a bare name and from a path. -/
theorem sharedLib_at_most_twice :
    ∃ s, sharedLib.host.workspace.session? 0 = some s ∧
      (s.references sharedLib.host.defaults).length = 2 ∧
      (s.references sharedLib.host.defaults).Pairwise fun e e' =>
        Path.names ⟨"/"⟩ e.path = Path.names ⟨"/"⟩ e'.path →
          ∃ bare, sharedLib.cache.CameFrom runtimeSetting bare e ∧
            sharedLib.cache.CameFrom runtimeSetting (!bare) e' := by
  obtain ⟨s, at_0, hpaths⟩ := sharedLib_paths
  refine ⟨s, at_0, ?_,
    (references_at_most_twice reachable_sharedLib (Setting.still_only _ _ _) at_0).1⟩
  rw [← List.length_map Entry.path, hpaths]
  rfl

/-- The library of `sharedLib` is listed twice, with the same path. -/
theorem sharedLib_listed_twice :
    sharedLib.Reachable runtimeSetting runtimeConfig [] ∧
    ∃ s, sharedLib.host.workspace.session? 0 = some s ∧
      ¬ ((s.references sharedLib.host.defaults).map Entry.path).Nodup := by
  obtain ⟨s, at_0, hpaths⟩ := sharedLib_paths
  exact ⟨reachable_sharedLib, s, at_0, by rw [hpaths]; decide⟩

end LiveHost

end ScriptSessions
