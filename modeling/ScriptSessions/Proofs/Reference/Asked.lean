import ScriptSessions.Proofs.Reference.DefaultMerge
import ScriptSessions.Proofs.Reference.Failure
import ScriptSessions.Proofs.Reference.Resolve
import ScriptSessions.Proofs.World

set_option autoImplicit false

/-! # Locations that are asked for one after another

While no file changes, whether a location resolves can be read off the disk and off the locations
that have been asked for before it. A key has an entry if and only if one of these had the key and
designated a module (`Cache.After`); all others have left nothing behind. So a location resolves if
it designates a module, or if an earlier one with its key did (`Cache.After.exists_resolve_iff`).

A default set asks for its locations in this way before any directive is looked at. What it asks
for in vain does not count later (`provides_iff_of_sublist`), and neither does a search directory
that is missing (`designates_iff_of_lacks`).
-/

namespace ScriptSessions.Reference

variable {w : World} {dirs : List Path} {asked : List String} {key : Key} {location : String}
  {c : Cache}

/-! ## Keys with a module -/

/-- Whether one of the locations that have been asked for provides a key with a module: it has the
key, and the file of the module that it designates is there. -/
def Provides (w : World) (searchDirectories : List Path) (asked : List String) (key : Key) : Prop :=
  ∃ location ∈ asked, Key.normalize w.directory location = .ok key ∧
    Designates w searchDirectories location

/-- Whether a location resolves after others have been asked for. -/
def ResolvesAfter (w : World) (searchDirectories : List Path) (asked : List String)
    (location : String) : Prop :=
  ∃ key, Key.normalize w.directory location = .ok key ∧
    Provides w searchDirectories (asked ++ [location]) key

theorem provides_append {more : List String} : Provides w dirs (asked ++ more) key ↔
    Provides w dirs asked key ∨ Provides w dirs more key := by
  simp only [Provides, List.mem_append, or_and_right, exists_or]

theorem provides_singleton : Provides w dirs [location] key ↔
    Key.normalize w.directory location = .ok key ∧ Designates w dirs location := by
  simp only [Provides, List.mem_singleton, exists_eq_left]

/-- Locations that designate nothing may be left out. -/
theorem provides_iff_of_sublist {asked' : List String} (sublist : asked'.Sublist asked)
    (all : ∀ location ∈ asked, Designates w dirs location → location ∈ asked') :
    Provides w dirs asked' key ↔ Provides w dirs asked key := by
  constructor
  · rintro ⟨location, hmem, hkey, hfile⟩
    exact ⟨location, sublist.subset hmem, hkey, hfile⟩
  · rintro ⟨location, hmem, hkey, hfile⟩
    exact ⟨location, all location hmem hfile, hkey, hfile⟩

/-- What counts of a world are the current directory and which of the locations designate a
module. -/
theorem provides_congr {w' : World} {dirs' : List Path} (directory : w'.directory = w.directory)
    (modules : ∀ location ∈ asked, Designates w' dirs' location ↔ Designates w dirs location) :
    Provides w' dirs' asked key ↔ Provides w dirs asked key := by
  rw [Provides, Provides, directory]
  exact exists_congr fun location => and_congr_right fun hmem =>
    and_congr_right fun _ => modules location hmem

/-! ## Missing directories -/

/-- A search directory that is missing may be left out. -/
theorem designates_iff_of_lacks {front back : List Path} {d : Path} (lacks : w.Lacks d) :
    Designates w (front ++ d :: back) location ↔ Designates w (front ++ back) location := by
  rw [Designates, Designates]
  refine and_congr_right fun _ => ?_
  by_cases bare : isBareName (Text.trim location) = true
  · have hname := isName_moduleFileName bare
    have hnone : w.isFile (candidate location d) = false :=
      lacks.isFile_div hname.slash hname.ne_empty
    rw [if_pos bare, if_pos bare]
    simp only [List.mem_append, List.mem_cons, or_and_right, exists_or, exists_eq_left, hnone,
      Bool.false_eq_true, false_or]
  · rw [if_neg bare, if_neg bare]

/-- There are no facades if the directory of the reference assemblies is missing. -/
theorem DefaultSet.facadeLocations_of_lacks {root : Path} (lacks : w.Lacks root)
    (documentation : Option Path) : facadeLocations w ⟨some root, documentation⟩ = [] := by
  have hempty : w.entriesOf (facadesDirectory root) = [] :=
    lacks.entriesOf_div (by decide) (by decide)
  simp only [facadeLocations, hempty, List.filter_nil, List.map_nil, List.mergeSort_nil]

/-! ## The cache after a sequence of locations -/

namespace Cache

/-- Whether a location resolves can be read off its key and the disk. -/
theorem Regular.exists_resolve_iff {among : String → Prop} (h : c.Regular (.only w dirs among) []) :
    (∃ e, (c.resolve w location).1 = .ok e) ↔ ∃ key, Key.normalize w.directory location = .ok key ∧
      ((∃ e, c.entryAt? key = some e) ∨ Designates w dirs location) := by
  cases hget : c.get? w.directory location with
  | some e =>
      obtain ⟨key, hkey, he⟩ := get?_eq_some_iff.mp hget
      rw [resolve_of_entryAt? hkey he]
      exact iff_of_true ⟨e, rfl⟩ ⟨key, hkey, .inl ⟨e, he⟩⟩
  | none =>
      have hpath := h.map_path_resolve hget
      have hlocate : (∃ e, (c.resolve w location).1 = .ok e) ↔ Designates w dirs location := by
        rw [← exists_locateModule_iff, ← hpath]
        cases (c.resolve w location).1 <;> simp [Except.map]
      rw [hlocate]
      constructor
      · intro hfile
        exact ⟨_, Key.normalize_eq_ok_iff.mpr ⟨hfile.1, rfl⟩, .inr hfile⟩
      · rintro ⟨key, hkey, ⟨e, he⟩ | hfile⟩
        · cases hget.symm.trans (get?_of_entryAt? hkey he)
        · exact hfile

/-- The key of a location that is resolved has an entry afterwards if it had one, or if the location
designates a module. -/
theorem Regular.exists_entryAt?_resolve_iff {among : String → Prop}
    (h : c.Regular (.only w dirs among) []) (hkey : Key.normalize w.directory location = .ok key) :
    (∃ e, (c.resolve w location).2.entryAt? key = some e) ↔
      (∃ e, c.entryAt? key = some e) ∨ Designates w dirs location := by
  have hsettled := (h.narrow location).resolve (w := w) rfl (.inl rfl)
  constructor
  · rintro ⟨e, he⟩
    -- the entry comes from the location itself, or from one whose key had an entry
    obtain ⟨other, hother, hkey', hlocates⟩ :=
      (hsettled.regular.traced (Setting.still_only _ _ _)).origin key e he
    rcases hother with rfl | ⟨e', he'⟩
    · exact .inr (exists_locateModule_iff.mp ⟨e.path, hlocates.eq_locateModule.symm⟩)
    · obtain ⟨key', hk, hentry⟩ := get?_eq_some_iff.mp he'
      cases hk.symm.trans hkey'
      exact .inl ⟨e', hentry⟩
  · rintro (⟨e, he⟩ | hfile)
    · exact ⟨e, hsettled.keeps key e he⟩
    · obtain ⟨e, he⟩ := h.exists_resolve_iff.mpr ⟨key, hkey, .inr hfile⟩
      obtain ⟨key', hk, hentry⟩ := (h.narrow location).entryAt?_of_resolve (.inl rfl) he
      cases hk.symm.trans hkey
      exact ⟨e, hentry⟩

/-- What holds of a cache after locations have been asked for one after another, beside one state
of the disk: the keys with an entry are those which the locations provide with a module. -/
structure After (w : World) (dirs : List Path) (asked : List String) (c : Cache) : Prop where
  regular : c.Regular (.only w dirs fun _ => True) []
  entries : ∀ key, (∃ e, c.entryAt? key = some e) ↔ Provides w dirs asked key

theorem after_new (w : World) (dirs : List Path) (documentation : Documentation.Registry) :
    (new dirs documentation).After w dirs [] := by
  refine ⟨regular_new (.only w dirs fun _ => True) documentation, fun key => iff_of_false ?_ ?_⟩
  · rintro ⟨e, he⟩
    cases he
  · rintro ⟨location, hmem, -⟩
    cases hmem

/-- Asking for one location more. -/
theorem After.resolve (h : c.After w dirs asked) (location : String) :
    (c.resolve w location).2.After w dirs (asked ++ [location]) := by
  refine ⟨(h.regular.resolve (w := w) rfl trivial).regular, fun key => ?_⟩
  rw [provides_append, provides_singleton, ← h.entries]
  by_cases hkey : Key.normalize w.directory location = .ok key
  · rw [h.regular.exists_entryAt?_resolve_iff hkey, and_iff_right hkey]
  · rw [h.regular.entryAt?_resolve hkey, or_iff_left fun hboth => hkey hboth.1]

/-- **A location resolves** if it designates a module, or if an earlier one with its key did. -/
theorem After.exists_resolve_iff (h : c.After w dirs asked) :
    (∃ e, (c.resolve w location).1 = .ok e) ↔ ResolvesAfter w dirs asked location := by
  rw [h.regular.exists_resolve_iff, ResolvesAfter]
  refine exists_congr fun key => and_congr_right fun hkey => ?_
  rw [provides_append, provides_singleton, ← h.entries, and_iff_right hkey]

/-- Asking for several locations more. -/
theorem After.resolveAll (h : c.After w dirs asked) (locations : List String) :
    (c.resolveAll w locations).2.After w dirs (asked ++ locations) := by
  induction locations generalizing c asked with
  | nil =>
      rw [List.append_nil]
      exact h
  | cons location rest ih =>
      have hrest := ih (h.resolve location)
      rw [List.append_assoc] at hrest
      exact hrest

/-- The cache that a new default set leaves behind. -/
theorem After.build (h : c.After w dirs asked) (sources : DefaultSet.Sources) :
    (DefaultSet.build w c sources).2.After w dirs
      (asked ++ DefaultSet.startLocations w c.documentation.directories sources) := by
  have hnamed := h.resolveAll (DefaultSet.namedLocations sources)
  have hall := hnamed.resolveAll (DefaultSet.facadeLocations w c.documentation.directories)
  have hstart : DefaultSet.startLocations w c.documentation.directories sources
      = DefaultSet.namedLocations sources
        ++ DefaultSet.facadeLocations w c.documentation.directories := by
    rw [DefaultSet.startLocations, DefaultSet.namedLocations, distinct_eq_eraseDups]
  rw [hstart, ← List.append_assoc, DefaultSet.build, DefaultSet.buildOn_eq]
  exact hall

end Cache

end ScriptSessions.Reference
