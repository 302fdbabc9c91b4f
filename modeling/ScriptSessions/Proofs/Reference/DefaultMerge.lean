import ScriptSessions.Proofs.Reference.Defaults
import ScriptSessions.Proofs.Reference.Names

set_option autoImplicit false

/-! # A default set merges what its sources give

Building resolves one location after another and records every entry that it is given under the
folded name of its module. So a default set depends on the list of these entries alone
(`DefaultSet.buildOn_eq`): a name stands where its first entry was recorded
(`fst_recordAll`) and holds the last one (`lookup_recordAll`). The facades come last, so a name
that a facade has holds the entry of a facade.

The locations of the facades are sorted, and everything else that building looks at is looked up
by its place. So nothing depends on the order in which a directory lists what stands in it
(`World.Relisted.buildOn`).
-/

namespace ScriptSessions

namespace Reference

/-! ## Recording one entry after another -/

theorem distinct_eq_eraseDups {α : Type} [DecidableEq α] (l : List α) :
    distinct l = l.eraseDups := by
  have hany (acc : List α) (a : α) : (acc.any (· == a) = true) ↔ a ∈ acc := by simp
  show _ = l.eraseDupsBy (· == ·)
  rw [← foldl_eq_eraseDupsBy (fun a b => Bool.beq_comm), distinct]
  simp only [hany]

theorem distinct_concat {α : Type} [DecidableEq α] (l : List α) (a : α) :
    distinct (l ++ [a]) = if a ∈ distinct l then distinct l else distinct l ++ [a] := by
  rw [distinct, List.foldl_append]
  rfl

theorem fst_record {α : Type} (table : List (String × α)) (key : String) (value : α) :
    (record table key value).map Prod.fst
      = if key ∈ table.map Prod.fst then table.map Prod.fst else table.map Prod.fst ++ [key] := by
  induction table with
  | nil => rfl
  | cons p rest ih =>
      obtain ⟨k, v⟩ := p
      by_cases hk : k = key
      · subst hk
        simp [record]
      · rw [record, if_neg hk, List.map_cons, ih]
        by_cases hrest : key ∈ rest.map Prod.fst
        · have hold : key ∈ k :: rest.map Prod.fst := List.mem_cons_of_mem k hrest
          rw [if_pos hrest]
          exact (if_pos hold).symm
        · have hnew : key ∉ k :: rest.map Prod.fst := by
            rw [List.mem_cons, not_or]
            exact ⟨Ne.symm hk, hrest⟩
          rw [if_neg hrest]
          exact (if_neg hnew).symm

theorem lookup_record {α : Type} (table : List (String × α)) (key other : String) (value : α) :
    (record table key value).lookup other
      = if other = key then some value else table.lookup other := by
  induction table with
  | nil => exact lookup_cons_eq_ite other key value []
  | cons p rest ih =>
      obtain ⟨k, v⟩ := p
      rw [record, lookup_cons_eq_ite]
      by_cases hk : k = key
      · rw [if_pos hk, lookup_cons_eq_ite, hk]
        by_cases h : other = key <;> simp [h]
      · rw [if_neg hk, lookup_cons_eq_ite, ih]
        by_cases h : other = k
        · have hne : other ≠ key := fun heq => hk (h.symm.trans heq)
          rw [if_pos h, if_pos h, if_neg hne]
        · rw [if_neg h, if_neg h]

/-- The folded name under which an entry is kept. -/
def Entry.key (e : Entry) : String := nameKey e.name

/-- A table in which entries are recorded one after another, each under its own name. -/
def recordAll (table : List (String × Entry)) (entries : List Entry) : List (String × Entry) :=
  entries.foldl (fun table e => record table e.key e) table

theorem recordAll_concat (table : List (String × Entry)) (entries : List Entry) (e : Entry) :
    recordAll table (entries ++ [e]) = record (recordAll table entries) e.key e := by
  rw [recordAll, List.foldl_append]
  rfl

/-- Each name stands where its first entry was recorded. -/
theorem fst_recordAll (entries : List Entry) :
    (recordAll [] entries).map Prod.fst = distinct (entries.map Entry.key) := by
  induction entries using List.reverseRecOn with
  | nil => rfl
  | append_singleton front e ih =>
      rw [recordAll_concat, fst_record, ih, List.map_append, List.map_singleton, distinct_concat]

/-- Each name holds the last entry that was recorded. -/
theorem lookup_recordAll (entries : List Entry) (key : String) :
    (recordAll [] entries).lookup key = (entries.filter (·.key == key)).getLast? := by
  induction entries using List.reverseRecOn with
  | nil => rfl
  | append_singleton front e ih =>
      rw [recordAll_concat, lookup_record, ih, List.filter_append, List.getLast?_append]
      by_cases h : key = e.key
      · subst h
        simp
      · have hne : (e.key == key) = false := by simpa using Ne.symm h
        rw [if_neg h, List.filter_cons_of_neg (by simp [hne])]
        rfl

/-! ## The entries that the sources give -/

/-- The entries among the results of resolving, in order. -/
def entriesOf (results : List (Except Error Entry)) : List Entry :=
  results.filterMap Except.toOption

theorem Cache.resolveAll_cons (w : World) (c : Cache) (location : String) (rest : List String) :
    c.resolveAll w (location :: rest)
      = ((c.resolve w location).1 :: ((c.resolve w location).2.resolveAll w rest).1,
          ((c.resolve w location).2.resolveAll w rest).2) :=
  rfl

theorem Cache.resolveAll_append (w : World) (c : Cache) (front back : List String) :
    c.resolveAll w (front ++ back)
      = ((c.resolveAll w front).1 ++ ((c.resolveAll w front).2.resolveAll w back).1,
          ((c.resolveAll w front).2.resolveAll w back).2) := by
  induction front generalizing c with
  | nil => rfl
  | cons location rest ih =>
      rw [List.cons_append, resolveAll_cons, resolveAll_cons, ih]
      rfl

namespace DefaultSet

/-- The locations of the named references: every assembly that defines a well-known type, and what
is asked for besides. -/
def namedLocations (sources : Sources) : List String :=
  (sources.wellKnown.map (·.assembly)).eraseDups ++ sources.extraReferences

/-- Locations that do not resolve leave no trace in the set. -/
theorem addAll_eq (w : World) (add : DefaultSet → Entry → DefaultSet) (s : DefaultSet) (c : Cache)
    (locations : List String) :
    addAll w add s c locations
      = ((entriesOf (c.resolveAll w locations).1).foldl add s, (c.resolveAll w locations).2) := by
  induction locations generalizing s c with
  | nil => rfl
  | cons location rest ih =>
      rw [Cache.resolveAll_cons, addAll]
      generalize c.resolve w location = r
      obtain ⟨result, d⟩ := r
      cases result with
      | ok e => exact ih (add s e) d
      | error => exact ih s d

theorem foldl_insert (entries : List Entry) (s : DefaultSet) :
    entries.foldl insert s = { s with table := recordAll s.table entries } := by
  induction entries generalizing s with
  | nil => rfl
  | cons e rest ih => exact ih (s.insert e)

theorem table_foldl_insertFacade (entries : List Entry) (s : DefaultSet) :
    (entries.foldl insertFacade s).table = recordAll s.table entries := by
  induction entries generalizing s with
  | nil => rfl
  | cons e rest ih => exact ih (s.insertFacade e)

theorem mem_facades_foldl_insertFacade (entries : List Entry) (s : DefaultSet) (key : String) :
    key ∈ (entries.foldl insertFacade s).facades ↔
      key ∈ s.facades ∨ ∃ e ∈ entries, e.key = key := by
  induction entries generalizing s with
  | nil => simp
  | cons e rest ih =>
      have hfacades : (s.insertFacade e).facades = distinct (s.facades ++ [e.key]) := rfl
      rw [List.foldl_cons, ih, hfacades, distinct_eq_eraseDups, List.mem_eraseDups]
      simp [or_assoc, eq_comm]

/-- The set that comes of entries of named references and of facades. -/
def ofEntries (named facades : List Entry) (sources : Sources) : DefaultSet :=
  { facades.foldl insertFacade { table := recordAll [] named } with
    imports := (defaultImports ++ sources.wellKnown.filterMap WellKnownType.namespace? ++
      sources.extraImports).eraseDups }

/-- Building asks for the named references and then for the facades, and keeps the entries. -/
theorem buildOn_eq (w : World) (directories : Documentation.Directories) (c : Cache)
    (sources : Sources) :
    let named := c.resolveAll w (namedLocations sources)
    let facades := named.2.resolveAll w (facadeLocations w directories)
    buildOn w directories c sources
      = (ofEntries (entriesOf named.1) (entriesOf facades.1) sources, facades.2) := by
  have hnamed (found more : List Entry) :
      more.foldl insert (found.foldl insert {}) = { table := recordAll [] (found ++ more) } := by
    rw [← List.foldl_append, foldl_insert]
  simp only [buildOn, addAll_eq, namedLocations, Cache.resolveAll_append, distinct_eq_eraseDups,
    hnamed, entriesOf, List.filterMap_append]
  rfl

/-! ## The namespaces of types -/

end DefaultSet

/-- The namespace of a type is what stands before the last dot of its name. A type whose name has no
dot is in no namespace. -/
inductive WellKnownType.InNamespace (t : WellKnownType) : Option String → Prop where
  | within (space name : String) (spelled : t.typeName = space ++ "." ++ name)
      (last : '.' ∉ name.toList) : InNamespace t (some space)
  | outside (undotted : '.' ∉ t.typeName.toList) : InNamespace t none

theorem WellKnownType.inNamespace_iff {t : WellKnownType} {space? : Option String} :
    t.InNamespace space? ↔ t.namespace? = space? := by
  constructor
  · intro h
    cases h with
    | within space name spelled last =>
        have hcut : Path.cutAtLastDot? t.typeName.toList = some (space.toList, name.toList) :=
          Path.cutAtLastDot?_eq_some_iff.mpr ⟨by simp [spelled, String.toList_append], last⟩
        rw [namespace?, hcut, Option.map_some, String.ofList_toList]
    | outside undotted =>
        rw [namespace?, Path.cutAtLastDot?_eq_none_iff.mpr undotted, Option.map_none]
  · rintro rfl
    unfold namespace?
    cases hcut : Path.cutAtLastDot? t.typeName.toList with
    | none => exact .outside (Path.cutAtLastDot?_eq_none_iff.mp hcut)
    | some p =>
        obtain ⟨hname, hlast⟩ := Path.cutAtLastDot?_eq_some_iff.mp hcut
        refine .within _ (String.ofList p.2) (String.toList_inj.mp ?_) ?_
        · simp [String.toList_append, hname]
        · rwa [String.toList_ofList]

namespace DefaultSet

/-! ## The merge -/

/-- How a default set comes of the entries of its named references and of its facades. -/
structure Merges (named facades : List Entry) (sources : Sources) (s : DefaultSet) : Prop where
  /-- Each name is kept once, where its first entry was given. -/
  names : s.table.map Prod.fst = ((named ++ facades).map Entry.key).eraseDups
  /-- Each name holds the last entry that was given. -/
  lookup : ∀ key, s.table.lookup key = ((named ++ facades).filter (·.key == key)).getLast?
  /-- So there is one reference for each name, in the order of the names. -/
  references : s.references.map some = ((named ++ facades).map Entry.key).eraseDups.map fun key =>
    ((named ++ facades).filter (·.key == key)).getLast?
  isFacade : ∀ name, s.isFacade name = true ↔ ∃ e ∈ facades, e.key = nameKey name
  /-- The entry of a facade is not replaced by one that is none. -/
  ofFacade : ∀ name, s.isFacade name = true → ∃ e ∈ facades, s.get? name = some e
  /-- The imports are the fixed ones, the namespaces of the well-known types and the extra ones,
  each at its first occurrence. -/
  imports : ∃ spaces, List.Forall₂ WellKnownType.InNamespace sources.wellKnown spaces ∧
    s.imports = (defaultImports ++ spaces.reduceOption ++ sources.extraImports).eraseDups

theorem merges_ofEntries (named facades : List Entry) (sources : Sources) :
    Merges named facades sources (ofEntries named facades sources) := by
  have htable : (ofEntries named facades sources).table = recordAll [] (named ++ facades) := by
    show (facades.foldl insertFacade _).table = _
    rw [table_foldl_insertFacade, recordAll, recordAll, recordAll, List.foldl_append]
  have hfacade (name : String) : (ofEntries named facades sources).isFacade name = true ↔
      ∃ e ∈ facades, e.key = nameKey name := by
    unfold isFacade
    rw [List.contains_iff_mem]
    show _ ∈ (facades.foldl insertFacade _).facades ↔ _
    rw [mem_facades_foldl_insertFacade]
    exact or_iff_right List.not_mem_nil
  have hlookup (key : String) : (ofEntries named facades sources).table.lookup key
      = ((named ++ facades).filter (·.key == key)).getLast? := by
    rw [htable, lookup_recordAll]
  have hspaces : List.Forall₂ WellKnownType.InNamespace sources.wellKnown
      (sources.wellKnown.map WellKnownType.namespace?) :=
    List.forall₂_map_right_iff.mpr
      (List.forall₂_same.mpr fun t _ => WellKnownType.inNamespace_iff.mpr rfl)
  have hnames : (ofEntries named facades sources).table.map Prod.fst
      = ((named ++ facades).map Entry.key).eraseDups := by
    rw [htable, fst_recordAll, distinct_eq_eraseDups]
  refine ⟨hnames, hlookup, ?_, hfacade, ?_, _, hspaces, ?_⟩
  · -- no name is kept twice, so each reference is what its name holds
    have hnodup : ((ofEntries named facades sources).table.map Prod.fst).Nodup := by
      rw [hnames]
      exact (pairwise_eraseDupsBy _).imp fun hne heq => by simp [heq] at hne
    rw [references, ← hnames, List.map_map, List.map_map]
    refine List.map_congr_left fun p hp => ?_
    exact (lookup_of_mem hnodup hp).symm.trans (hlookup p.1)
  · intro name h
    obtain ⟨e, he, hkey⟩ := (hfacade name).mp h
    -- the facades were recorded last, so the last entry of the name is that of a facade
    have hmem : e ∈ facades.filter (·.key == nameKey name) :=
      List.mem_filter.mpr ⟨he, by simpa using hkey⟩
    obtain ⟨last, hlast⟩ := List.getLast?_isSome.mpr (List.ne_nil_of_mem hmem) |>
      Option.isSome_iff_exists.mp
    refine ⟨last, (List.mem_filter.mp (List.mem_of_getLast? hlast)).1, ?_⟩
    rw [get?, hlookup, List.filter_append, List.getLast?_append, hlast]
    rfl
  · have hspaces : (sources.wellKnown.map WellKnownType.namespace?).reduceOption
        = sources.wellKnown.filterMap WellKnownType.namespace? := List.filterMap_map
    rw [hspaces]
    rfl

/-! ## Where the facades are -/

/-- The file of a facade has a name with the extension `dll`, in any ASCII case. -/
theorem hasFacadeExtension_iff (p : Path) :
    hasFacadeExtension p = true ↔ ∃ stem ext, p.fileName? = some (stem ++ "." ++ ext) ∧
      stem ≠ "" ∧ Text.foldAscii ext = "dll" := by
  unfold hasFacadeExtension
  constructor
  · intro h
    split at h
    · cases h
    · next stem ext hsplit =>
        obtain ⟨hname, hstem, -⟩ := Path.splitExtension?_eq_some_iff.mp hsplit
        refine ⟨stem, ext, ?_, hstem, Text.sameFolded_iff.mp h⟩
        cases hfile : p.fileName? with
        | none =>
            -- a path without a file name counts as one with an empty name
            have hlength := congrArg String.length hname
            rw [hfile, String.length_append, String.length_append] at hlength
            have hone : ".".length = 1 := rfl
            exact absurd hlength (by simp only [Option.getD_none, String.length_empty]; omega)
        | some name => rw [hfile, Option.getD_some] at hname; rw [hname]
  · rintro ⟨stem, ext, hname, hstem, hext⟩
    have hdot : '.' ∉ ext.toList := by
      intro hmem
      have hfolded : '.' ∈ (Text.foldAscii ext).toList := by
        rw [Text.foldAscii, String.toList_ofList]
        exact List.mem_map.mpr ⟨'.', hmem, by decide⟩
      rw [hext] at hfolded
      exact absurd hfolded (by decide)
    have hsplit := Path.splitExtension?_eq_some_iff.mpr ⟨rfl, hstem, hdot⟩
    rw [hname, Option.getD_some, hsplit]
    exact Text.sameFolded_iff.mpr hext

/-- The locations of the facades are those of the files in the directory of facades, in order. -/
theorem pairwise_facadeLocations (w : World) (directories : Documentation.Directories) :
    (facadeLocations w directories).Pairwise (· ≤ ·) := by
  unfold facadeLocations
  split
  · exact .nil
  · have htrans (a b c : String) (hab : decide (a ≤ b) = true) (hbc : decide (b ≤ c) = true) :
        decide (a ≤ c) = true :=
      decide_eq_true (String.le_trans (of_decide_eq_true hab) (of_decide_eq_true hbc))
    have htotal (a b : String) : (decide (a ≤ b) || decide (b ≤ a)) = true := by
      simpa using String.le_total a b
    exact (List.pairwise_mergeSort htrans htotal _).imp of_decide_eq_true

/-- What stands in the directory of facades and has the extension of a facade, as it is listed. -/
def listedFacades (w : World) (directories : Documentation.Directories) : List String :=
  ((directories.referenceAssemblies.toList.flatMap fun root =>
    w.entriesOf (facadesDirectory root)).filter hasFacadeExtension).map Path.text

theorem facadeLocations_perm (w : World) (directories : Documentation.Directories) :
    (facadeLocations w directories).Perm (listedFacades w directories) := by
  unfold facadeLocations listedFacades
  split
  · next hnone => rw [hnone]; exact .nil
  · next root hroot =>
      rw [hroot]
      simpa using List.mergeSort_perm _ _

/-- There is one order only, however the facades are listed. -/
theorem facadeLocations_eq_of_perm {w : World} {directories : Documentation.Directories}
    {locations : List String} (sorted : locations.Pairwise (· ≤ ·))
    (perm : locations.Perm (listedFacades w directories)) :
    facadeLocations w directories = locations :=
  List.Perm.eq_of_pairwise (fun _ _ _ _ => String.le_antisymm)
    (pairwise_facadeLocations w directories) sorted
    ((facadeLocations_perm w directories).trans perm.symm)

theorem mem_facadeLocations_iff {w : World} {directories : Documentation.Directories}
    {location : String} :
    location ∈ facadeLocations w directories ↔
      ∃ root ∈ directories.referenceAssemblies, ∃ p ∈ w.entriesOf (facadesDirectory root),
        (∃ stem ext, p.fileName? = some (stem ++ "." ++ ext) ∧ stem ≠ "" ∧
          Text.foldAscii ext = "dll") ∧ p.text = location := by
  rw [(facadeLocations_perm w directories).mem_iff]
  simp only [listedFacades, List.mem_map, List.mem_filter, List.mem_flatMap, Option.mem_toList,
    hasFacadeExtension_iff]
  constructor
  · rintro ⟨p, ⟨⟨root, hroot, hp⟩, hext⟩, htext⟩
    exact ⟨root, hroot, p, hp, hext, htext⟩
  · rintro ⟨root, hroot, p, hp, hext, htext⟩
    exact ⟨p, ⟨⟨root, hroot, hp⟩, hext⟩, htext⟩

end DefaultSet

end Reference

/-! ## The order in which directories list what stands in them -/

/-- Two worlds with the same files, whose directories list them in different orders. -/
structure World.Relisted (w w' : World) : Prop where
  directory : w'.directory = w.directory
  find? : ∀ place, w'.files.find? place = w.files.find? place
  children : ∀ place, (w'.files.children place).Perm (w.files.children place)

/-- The same files, listed the other way round. -/
def World.reversed (w : World) : World := { w with files := ⟨w.files.entries.reverse⟩ }

namespace World.Relisted

variable {w w' : World}

/-- A list of files in another order, each place being listed once, is such a world. -/
theorem of_perm (nodup : (w.files.entries.map Prod.fst).Nodup)
    (perm : w'.files.entries.Perm w.files.entries) (directory : w'.directory = w.directory) :
    w.Relisted w' := by
  have nodup' : (w'.files.entries.map Prod.fst).Nodup := (perm.map Prod.fst).nodup_iff.mpr nodup
  refine ⟨directory, fun place => ?_, fun place => perm.filterMap _⟩
  have hlookup : w'.files.entries.lookup place = w.files.entries.lookup place := by
    refine Option.ext fun node => ⟨fun h => ?_, fun h => ?_⟩
    · exact lookup_of_mem nodup (perm.mem_iff.mp (mem_of_lookup h))
    · exact lookup_of_mem nodup' (perm.mem_iff.mpr (mem_of_lookup h))
  rw [FileTree.find?, FileTree.find?, hlookup]

theorem reversed (nodup : (w.files.entries.map Prod.fst).Nodup) : w.Relisted w.reversed :=
  of_perm nodup (List.reverse_perm w.files.entries) rfl

theorem walk (h : w.Relisted w') (segments : List String) (place : Place) :
    World.walk w'.files segments place = World.walk w.files segments place := by
  induction segments generalizing place with
  | nil => rfl
  | cons s rest ih => simp only [World.walk, h.find?, ih]

theorem locate (h : w.Relisted w') (p : Path) : w'.locate p = w.locate p := by
  simp only [World.locate, h.walk, h.directory]

theorem examine (h : w.Relisted w') (p : Path) : w'.examine p = w.examine p := by
  simp only [World.examine, h.locate, h.find?]

theorem isFile (h : w.Relisted w') (p : Path) : w'.isFile p = w.isFile p := by
  simp only [World.isFile, h.examine]

theorem entriesOf (h : w.Relisted w') (p : Path) : (w'.entriesOf p).Perm (w.entriesOf p) := by
  unfold World.entriesOf
  rw [h.locate]
  split
  · exact .nil
  · next place hplace =>
      rw [h.find?]
      split
      · exact (h.children place).map _
      · exact .nil

open Reference

theorem search_step (h : w.Relisted w') (r : Documentation.Registry) (s : Documentation.Search) :
    s.step w' r = s.step w r := by
  unfold Documentation.Search.step
  simp only [h.isFile, h.directory]

theorem fetch_step (h : w.Relisted w') (others : List Fetch) (c : Cache) (f : Fetch) :
    f.step w' others c = f.step w others c := by
  unfold Fetch.step
  simp only [h.isFile, h.examine, h.directory, h.search_step]

theorem finish (h : w.Relisted w') (c : Cache) (f : Fetch) :
    Fetch.finish w' c f = Fetch.finish w c f := by
  induction c, f using Fetch.finish.induct (w := w) with
  | case1 c f result hresult =>
      rw [Fetch.finish_of_result? hresult, Fetch.finish_of_result? hresult]
  | case2 c f hnone next ih =>
      calc Fetch.finish w' c f
          = Fetch.finish w' next.2 next.1 := Fetch.finish_step hnone (h.fetch_step [] c f)
        _ = Fetch.finish w next.2 next.1 := ih
        _ = Fetch.finish w c f := (Fetch.finish_step hnone rfl).symm

theorem resolve (h : w.Relisted w') (c : Cache) (location : String) :
    c.resolve w' location = c.resolve w location :=
  h.finish c (.start location)

theorem resolveAll (h : w.Relisted w') (c : Cache) (locations : List String) :
    c.resolveAll w' locations = c.resolveAll w locations := by
  induction locations generalizing c with
  | nil => rfl
  | cons location rest ih => simp only [Cache.resolveAll_cons, h.resolve, ih]

/-- Sorting undoes the order of the directory of facades. -/
theorem facadeLocations (h : w.Relisted w') (directories : Documentation.Directories) :
    DefaultSet.facadeLocations w' directories = DefaultSet.facadeLocations w directories := by
  have hentries := (List.Perm.refl directories.referenceAssemblies.toList).flatMap
    fun root _ => h.entriesOf (facadesDirectory root)
  have hlisted : (DefaultSet.listedFacades w' directories).Perm
      (DefaultSet.listedFacades w directories) :=
    (hentries.filter DefaultSet.hasFacadeExtension).map Path.text
  exact DefaultSet.facadeLocations_eq_of_perm (DefaultSet.pairwise_facadeLocations w directories)
    ((DefaultSet.facadeLocations_perm w directories).trans hlisted.symm)

/-- A default set does not depend on the order in which directories list their files. -/
theorem buildOn (h : w.Relisted w') (directories : Documentation.Directories) (c : Cache)
    (sources : DefaultSet.Sources) :
    DefaultSet.buildOn w' directories c sources = DefaultSet.buildOn w directories c sources := by
  simp only [DefaultSet.buildOn_eq, h.resolveAll, h.facadeLocations]

end World.Relisted

namespace Reference.DefaultSet

/-! ## The default set of any sources -/

/-- **A default set is the merge of its sources**: of the entries that the assemblies of the
well-known types, the extra references and the facades resolve to, one after another. The
locations of the facades are the modules of the directory of facades in order, and the set and
the cache are the same however directories list what stands in them. -/
theorem merges_buildOn (w : World) (directories : Documentation.Directories) (c : Cache)
    (sources : Sources) :
    let named := c.resolveAll w
      ((sources.wellKnown.map (·.assembly)).eraseDups ++ sources.extraReferences)
    let facades := named.2.resolveAll w (facadeLocations w directories)
    Merges (entriesOf named.1) (entriesOf facades.1) sources
        (buildOn w directories c sources).1 ∧
      (buildOn w directories c sources).2 = facades.2 ∧
      (facadeLocations w directories).Pairwise (· ≤ ·) ∧
      (∀ location, location ∈ facadeLocations w directories ↔
        ∃ root ∈ directories.referenceAssemblies, ∃ p ∈ w.entriesOf (facadesDirectory root),
          (∃ stem ext, p.fileName? = some (stem ++ "." ++ ext) ∧ stem ≠ "" ∧
            Text.foldAscii ext = "dll") ∧ p.text = location) ∧
      ∀ w', w.Relisted w' → buildOn w' directories c sources = buildOn w directories c sources := by
  have hbuild := buildOn_eq w directories c sources
  refine ⟨?_, ?_, pairwise_facadeLocations w directories, fun _ => mem_facadeLocations_iff,
    fun w' h => h.buildOn directories c sources⟩
  · rw [hbuild]
    exact merges_ofEntries _ _ sources
  · rw [hbuild]
    rfl

/-- A platform with two facades. -/
def twoFacades : World :=
  (((default : World).putFile ⟨"/ref/Facades/b.DLL"⟩ (.text "")).putFile ⟨"/ref/Facades/a.dll"⟩
    (.text "")).putFile ⟨"/x/B.dll"⟩ (.text "")

/-- Types of an assembly that is missing, one of them in no namespace, and a reference that a facade
replaces. -/
def replacedByFacade : Sources :=
  { wellKnown := [⟨"System.Object", "a"⟩, ⟨"System.Net.Http.Client", "a"⟩, ⟨"Program", "a"⟩],
    extraReferences := ["/x/B.dll"], extraImports := ["My.Tools", "System.Net.Http"] }

/-- The facade `b` stands where the reference stood, and before the facade `a`. The namespaces of the
types are imported after the fixed ones, and none of them twice. -/
theorem twoFacades_merge :
    let directories : Documentation.Directories := { referenceAssemblies := some ⟨"/ref"⟩ }
    let start := Cache.new [] (.new directories)
    twoFacades.Relisted twoFacades.reversed ∧
      buildOn twoFacades.reversed directories start replacedByFacade
        = buildOn twoFacades directories start replacedByFacade ∧
      (buildOn twoFacades directories start replacedByFacade).1.references.map Entry.path
        = [⟨"/ref/Facades/b.DLL"⟩, ⟨"/ref/Facades/a.dll"⟩] ∧
      (buildOn twoFacades directories start replacedByFacade).1.imports
        = ["System", "System.IO", "System.Collections.Generic", "System.Linq", "System.Text",
           "System.Threading.Tasks", "System.Net.Http", "My.Tools"] := by
  intro directories start
  have hrelisted : twoFacades.Relisted twoFacades.reversed := .reversed (by decide +kernel)
  have hfacades : facadeLocations twoFacades directories
      = ["/ref/Facades/a.dll", "/ref/Facades/b.DLL"] :=
    facadeLocations_eq_of_perm (by decide +kernel) (by decide +kernel)
  obtain ⟨-, -, -, -, hsame⟩ := merges_buildOn twoFacades directories start replacedByFacade
  refine ⟨hrelisted, hsame twoFacades.reversed hrelisted, ?_⟩
  rw [buildOn_eq, hfacades]
  decide +kernel

end Reference.DefaultSet

end ScriptSessions
