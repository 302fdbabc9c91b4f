import ScriptSessions.Host.Discovery
import ScriptSessions.Proofs.Lists
import ScriptSessions.Proofs.Toml.Document
import ScriptSessions.Proofs.World

set_option autoImplicit false

/-! # Configurations survive writing and partial reading

A configuration is written as settings, and each setting that is kept in the document is read back
as it was, whatever else is left out. What is left out is taken from the default configuration
(`Config.restrict`). So every excerpt of the document (`Config.excerpt`) has a meaning, and the
whole document means the configuration itself.

The settings of a configuration are found by their names, so all that has to be known about the
names is that they are distinct and need no quotes (`Config.names_sublist`).
-/

namespace ScriptSessions

open Toml

/-! ## Settings that are left out -/

/-- Leaving out entries by their names leaves the other names alone. -/
theorem lookup_filter_key {β : Type} (keep : String → Bool) (name : String)
    (table : List (String × β)) :
    (table.filter (keep ·.1)).lookup name = if keep name then table.lookup name else none := by
  induction table with
  | nil => cases keep name <;> rfl
  | cons entry table ih =>
      obtain ⟨other, b⟩ := entry
      by_cases hname : name = other
      · subst hname
        cases hkeep : keep name with
        | true => simp [hkeep, List.lookup_cons_self]
        | false => simpa [hkeep] using ih
      · have hbeq : (name == other) = false := by simpa using hname
        cases hkeep : keep other with
        | true => simpa [hkeep, List.lookup_cons, hbeq] using ih
        | false => simpa [hkeep, List.lookup_cons, hbeq] using ih

namespace Toml

theorem lookup_itemsOf (settings : List (String × Setting)) (name : String) :
    (itemsOf settings).lookup name = (settings.lookup name).map Setting.item := by
  induction settings with
  | nil => rfl
  | cons entry settings ih =>
      obtain ⟨other, v⟩ := entry
      simp only [itemsOf, List.map_cons, List.lookup_cons] at ih ⊢
      split
      · rfl
      · exact ih

/-- A setting that is kept is read as before, and one that is left out has its default. -/
theorem Entries.setting?_filter {α : Type} {settings : List (String × Setting)} {name : String}
    {read : Item → Option α} {default value : α}
    (full : Entries.setting? (itemsOf settings) name read default = some value)
    (keep : String → Bool) :
    Entries.setting? (itemsOf (settings.filter (keep ·.1))) name read default
      = some (if keep name then value else default) := by
  unfold Entries.setting? at full ⊢
  rw [lookup_itemsOf] at full ⊢
  rw [lookup_filter_key]
  cases keep name with
  | true => exact full
  | false => rfl

theorem Entries.setting?_append {α : Type} {entries more : Entries} {name : String}
    (absent : more.lookup name = none) (read : Item → Option α) (default : α) :
    Entries.setting? (entries ++ more) name read default
      = Entries.setting? entries name read default := by
  have hlookup : (entries ++ more).lookup name = entries.lookup name := by
    rw [List.lookup_append, absent, Option.or_none]
  unfold Entries.setting?
  rw [hlookup]

theorem Item.strings?_array (ss : List String) :
    Item.strings? (.array (ss.map .string)) = some ss :=
  mapM_map_eq_self fun _ _ => rfl

theorem Item.byte?_integer (n : UInt8) : Item.byte? (.integer n.toNat) = some n := by
  have hsmall := n.toNat_lt
  have hrange : (0 : Int) ≤ n.toNat ∧ (n.toNat : Int) < 256 := by omega
  rw [Item.byte?, if_pos hrange, Int.toNat_natCast, UInt8.ofNat_toNat]

end Toml

/-! ## Compilation options -/

namespace CompilationOptions

/-- The options whose names are kept, and the defaults of the others. -/
def restrict (keep : String → Bool) (o : CompilationOptions) : CompilationOptions :=
  let default : CompilationOptions := {}
  { languageVersion :=
      if keep "language_version" then o.languageVersion else default.languageVersion
    optimize := if keep "optimize" then o.optimize else default.optimize
    allowUnsafe := if keep "allow_unsafe" then o.allowUnsafe else default.allowUnsafe
    checkOverflow := if keep "check_overflow" then o.checkOverflow else default.checkOverflow
    warningLevel := if keep "warning_level" then o.warningLevel else default.warningLevel }

theorem ofEntries?_filter (o : CompilationOptions) (keep : String → Bool) :
    ofEntries? (itemsOf (o.settings.filter (keep ·.1))) = some (o.restrict keep) := by
  have hversion : (itemsOf o.settings).setting? "language_version" Item.string?
      ({} : CompilationOptions).languageVersion = some o.languageVersion := rfl
  have hoptimize : (itemsOf o.settings).setting? "optimize" Item.bool?
      ({} : CompilationOptions).optimize = some o.optimize := rfl
  have hunsafe : (itemsOf o.settings).setting? "allow_unsafe" Item.bool?
      ({} : CompilationOptions).allowUnsafe = some o.allowUnsafe := rfl
  have hoverflow : (itemsOf o.settings).setting? "check_overflow" Item.bool?
      ({} : CompilationOptions).checkOverflow = some o.checkOverflow := rfl
  have hlevel : (itemsOf o.settings).setting? "warning_level" Item.byte?
      ({} : CompilationOptions).warningLevel = some o.warningLevel :=
    Item.byte?_integer o.warningLevel
  simp only [ofEntries?, Entries.setting?_filter hversion keep,
    Entries.setting?_filter hoptimize keep, Entries.setting?_filter hunsafe keep,
    Entries.setting?_filter hoverflow keep, Entries.setting?_filter hlevel keep]
  rfl

end CompilationOptions

/-! ## Configurations -/

namespace Config

/-- The settings whose names are kept, and the defaults of the others. -/
def restrict (keep keepOption : String → Bool) (c : Config) : Config :=
  let default : Config := {}
  { runtimeDirectory := if keep "runtime_directory" then c.runtimeDirectory else none
    referenceAssembliesPath :=
      if keep "reference_assemblies_path" then c.referenceAssembliesPath else none
    documentationPath := if keep "documentation_path" then c.documentationPath else none
    extraReferences :=
      if keep "extra_references" then c.extraReferences else default.extraReferences
    extraImports := if keep "extra_imports" then c.extraImports else default.extraImports
    reprocessOnOpen :=
      if keep "reprocess_on_open" then c.reprocessOnOpen else default.reprocessOnOpen
    logFilter := if keep "log_filter" then c.logFilter else default.logFilter
    compilationOptions :=
      if keep optionsTable then c.compilationOptions.restrict keepOption
      else default.compilationOptions }

/-- The document of a configuration, of which only the settings with certain names are kept, whole:
`keep` says which settings stay, the table of the compilation options among them, and `keepOption`
says which entries stay in that table. -/
def excerpt (keep keepOption : String → Bool) (c : Config) : String :=
  let settings := c.settings.filter (keep ·.1)
  if keep optionsTable then
    document settings (c.compilationOptions.settings.filter (keepOption ·.1))
  else String.ofList (renderEntries settings)

/-- The names of the settings apart from the compilation options. -/
def settingNames : List String :=
  ["runtime_directory", "reference_assemblies_path", "documentation_path", "extra_references",
   "extra_imports", "reprocess_on_open", "log_filter"]

theorem names_pathSetting (name : String) (p : Option Path) :
    ((pathSetting name p).map (·.1)).Sublist [name] := by
  cases p with
  | none => exact List.nil_sublist _
  | some p => exact List.Sublist.refl _

theorem names_sublist (c : Config) : (c.settings.map (·.1)).Sublist settingNames := by
  simp only [settings, List.map_append]
  exact (((names_pathSetting _ _).append (names_pathSetting _ _)).append
    (names_pathSetting _ _)).append (List.Sublist.refl _)

theorem fits_pathSetting {name : String} {p : Option Path} {entry : String × Setting}
    (h : entry ∈ pathSetting name p) : entry.2.Fits := by
  obtain ⟨p', -, rfl⟩ := List.mem_map.mp h
  trivial

theorem readable_settings (c : Config) : ∀ entry ∈ c.settings, Readable entry := by
  intro entry hentry
  have hbare : ∀ name ∈ settingNames, IsBareName name := by decide
  refine ⟨hbare _ (c.names_sublist.subset (List.mem_map_of_mem hentry)), ?_⟩
  simp only [settings, List.mem_append, List.mem_cons, List.not_mem_nil, or_false] at hentry
  rcases hentry with ((h | h) | h) | rfl | rfl | rfl | rfl
  · exact fits_pathSetting h
  · exact fits_pathSetting h
  · exact fits_pathSetting h
  all_goals trivial

theorem readable_options (o : CompilationOptions) : ∀ entry ∈ o.settings, Readable entry := by
  intro entry hentry
  have hbare : ∀ name ∈ CompilationOptions.settingNames, IsBareName name := by decide
  have hname : entry.1 ∈ CompilationOptions.settingNames :=
    List.mem_map_of_mem (f := Prod.fst) hentry
  refine ⟨hbare _ hname, ?_⟩
  simp only [CompilationOptions.settings, List.mem_cons, List.not_mem_nil, or_false] at hentry
  rcases hentry with rfl | rfl | rfl | rfl | rfl
  · trivial
  · trivial
  · trivial
  · trivial
  · exact Nat.lt_trans o.warningLevel.toNat_lt (by decide)

theorem ne_optionsTable (c : Config) (keep : String → Bool) :
    ∀ entry ∈ c.settings.filter (keep ·.1), entry.1 ≠ optionsTable := by
  intro entry hentry heq
  have hname := c.names_sublist.subset (List.mem_map_of_mem (List.mem_of_mem_filter hentry))
  have hother : optionsTable ∉ settingNames := by decide
  exact hother (heq ▸ hname)

/-- The entries of an excerpt: the settings that are kept, and the table of the compilation options
if it is kept. -/
def excerptEntries (keep keepOption : String → Bool) (c : Config) : Entries :=
  itemsOf (c.settings.filter (keep ·.1)) ++
    if keep optionsTable then
      [(optionsTable, .table .header
        (itemsOf (c.compilationOptions.settings.filter (keepOption ·.1))))]
    else []

theorem ofText?_excerpt (c : Config) (keep keepOption : String → Bool) :
    ofText? (c.excerpt keep keepOption) = some (c.excerptEntries keep keepOption) := by
  have hreadable : ∀ entry ∈ c.settings.filter (keep ·.1), Readable entry := fun entry hentry =>
    c.readable_settings entry (List.mem_of_mem_filter hentry)
  have hdistinct : ((c.settings.filter (keep ·.1)).map (·.1)).Nodup :=
    ((List.filter_sublist.map _).trans c.names_sublist).nodup (by decide : settingNames.Nodup)
  unfold excerpt excerptEntries
  dsimp only
  split
  · have hoptions : ∀ entry ∈ c.compilationOptions.settings.filter (keepOption ·.1),
        Readable entry := fun entry hentry =>
      readable_options c.compilationOptions entry (List.mem_of_mem_filter hentry)
    have hdistinct' : ((c.compilationOptions.settings.filter (keepOption ·.1)).map (·.1)).Nodup :=
      (List.filter_sublist.map _).nodup (by decide : CompilationOptions.settingNames.Nodup)
    refine ofText?_withTable _ _ (fun entry hentry => ?_) (by decide) hdistinct
      (c.ne_optionsTable keep) hdistinct'
    rcases List.mem_append.mp hentry with h | h
    · exact hreadable entry h
    · exact hoptions entry h
  · rw [List.append_nil]
    exact ofText?_renderEntries _ hreadable hdistinct

/-! ## Reading an excerpt -/

/-- A path that is not set has no entry, and is read so. -/
theorem setting?_path {c : Config} {name : String} {p : Option Path}
    (found : c.settings.lookup name = p.map fun p => .string p.text) :
    Entries.setting? (itemsOf c.settings) name (fun item => item.path?.map some) none = some p := by
  unfold Entries.setting?
  rw [lookup_itemsOf, found]
  cases p <;> rfl

theorem setting?_of_lookup {α : Type} {c : Config} {name : String} {v : Setting}
    (found : c.settings.lookup name = some v) (read : Item → Option α) {value : α}
    (value_eq : read v.item = some value) (default : α) :
    Entries.setting? (itemsOf c.settings) name read default = some value := by
  unfold Entries.setting?
  rw [lookup_itemsOf, found]
  exact value_eq

theorem lookup_settings (c : Config) :
    c.settings.lookup "runtime_directory" = c.runtimeDirectory.map (fun p => .string p.text) ∧
    c.settings.lookup "reference_assemblies_path"
      = c.referenceAssembliesPath.map (fun p => .string p.text) ∧
    c.settings.lookup "documentation_path" = c.documentationPath.map (fun p => .string p.text) ∧
    c.settings.lookup "extra_references" = some (.strings c.extraReferences) ∧
    c.settings.lookup "extra_imports" = some (.strings c.extraImports) ∧
    c.settings.lookup "reprocess_on_open" = some (.bool c.reprocessOnOpen) ∧
    c.settings.lookup "log_filter" = some (.string c.logFilter) := by
  obtain ⟨runtime, assemblies, documentation, references, imports, reprocess, log, options⟩ := c
  -- where a setting stands depends on which paths are set before it
  cases runtime <;> cases assemblies <;> cases documentation <;>
    exact ⟨rfl, rfl, rfl, rfl, rfl, rfl, rfl⟩

/-- What is kept is read as it was. -/
theorem setting?_excerpt {α : Type} {c : Config} {name : String} (other : name ≠ optionsTable)
    {read : Item → Option α} {default value : α}
    (full : Entries.setting? (itemsOf c.settings) name read default = some value)
    (keep keepOption : String → Bool) :
    (c.excerptEntries keep keepOption).setting? name read default
      = some (if keep name then value else default) := by
  have hbeq : (name == optionsTable) = false := by simpa using other
  have habsent : List.lookup name (if keep optionsTable then
      [(optionsTable, Item.table .header
        (itemsOf (c.compilationOptions.settings.filter (keepOption ·.1))))]
      else []) = none := by
    split
    · rw [List.lookup_cons, hbeq, List.lookup_nil]
    · rfl
  rw [excerptEntries, Entries.setting?_append habsent]
  exact Entries.setting?_filter full keep

/-- The compilation options are read from their table, if it is kept. -/
theorem setting?_options (c : Config) (keep keepOption : String → Bool) :
    (c.excerptEntries keep keepOption).setting? optionsTable CompilationOptions.ofItem? {}
      = some (if keep optionsTable then c.compilationOptions.restrict keepOption else {}) := by
  have hfront := lookup_itemsOf_eq_none (c.ne_optionsTable keep)
  unfold Entries.setting?
  rw [excerptEntries, List.lookup_append, hfront, Option.none_or]
  cases keep optionsTable with
  | true =>
      rw [if_pos rfl, List.lookup_cons_self, if_pos rfl]
      exact c.compilationOptions.ofEntries?_filter keepOption
  | false => rfl

theorem ofEntries?_excerpt (c : Config) (keep keepOption : String → Bool) :
    ofEntries? (c.excerptEntries keep keepOption) = some (c.restrict keep keepOption) := by
  obtain ⟨hruntime, hassemblies, hdocumentation, hreferences, himports, hreprocess, hlog⟩ :=
    c.lookup_settings
  have hruntime' := setting?_excerpt (by decide) (setting?_path hruntime) keep keepOption
  have hassemblies' := setting?_excerpt (by decide) (setting?_path hassemblies) keep keepOption
  have hdocumentation' :=
    setting?_excerpt (by decide) (setting?_path hdocumentation) keep keepOption
  have hreferences' := setting?_excerpt (by decide) (setting?_of_lookup hreferences _
    (Item.strings?_array c.extraReferences) ({} : Config).extraReferences) keep keepOption
  have himports' := setting?_excerpt (by decide) (setting?_of_lookup himports _
    (Item.strings?_array c.extraImports) ({} : Config).extraImports) keep keepOption
  have hreprocess' := setting?_excerpt (by decide) (setting?_of_lookup hreprocess
    Item.bool? rfl ({} : Config).reprocessOnOpen) keep keepOption
  have hlog' := setting?_excerpt (by decide) (setting?_of_lookup hlog
    Item.string? rfl ({} : Config).logFilter) keep keepOption
  have hoptions := c.setting?_options keep keepOption
  simp only [ofEntries?, hruntime', hassemblies', hdocumentation', hreferences', himports',
    hreprocess', hlog', hoptions]
  rfl

/-- A configuration of which everything is kept. -/
theorem restrict_all (c : Config) : c.restrict (fun _ => true) (fun _ => true) = c := rfl

theorem excerpt_all (c : Config) : c.excerpt (fun _ => true) (fun _ => true) = c.toToml := by
  simp [excerpt, toToml]

theorem ofToml?_excerpt (c : Config) (keep keepOption : String → Bool) :
    ofToml? (c.excerpt keep keepOption) = some (c.restrict keep keepOption) := by
  rw [ofToml?, ofText?_excerpt, Option.bind_some, ofEntries?_excerpt]

theorem ofToml?_toToml (c : Config) : ofToml? c.toToml = some c := by
  rw [← excerpt_all, ofToml?_excerpt, restrict_all]

/-- What `Config.restrict` gives is read from the excerpt, and the whole configuration is read from
the whole document and from a file that it has been written to. -/
structure Survives (c : Config) : Prop where
  excerpt : ∀ keep keepOption,
    ofToml? (c.excerpt keep keepOption) = some (c.restrict keep keepOption)
  /-- The excerpt of which everything is kept is the document. -/
  whole : c.excerpt (fun _ => true) (fun _ => true) = c.toToml
  document : ofToml? c.toToml = some c
  file : ∀ w p w', writeFile w p c = .ok w' → readFile w' p = .ok c

/-- **A configuration survives writing and partial reading.** -/
theorem survives (c : Config) : c.Survives := by
  refine ⟨c.ofToml?_excerpt, c.excerpt_all, c.ofToml?_toToml, fun w p w' written => ?_⟩
  unfold writeFile at written
  split at written
  · cases written
  · next w'' hwritten =>
      cases written
      simp only [readFile, World.readText_writeText hwritten, c.ofToml?_toToml]

/-- A configuration whose texts hold quotes, backslashes, controls and line ends. -/
def tricky : Config :=
  { runtimeDirectory := some ⟨"C:\\dotnet \"9\""⟩
    extraReferences := ["\"\"\"", "'''\n\"\"\"\"", "\r\n\t\x00"]
    extraImports := ["it's \"quoted\""]
    logFilter := "\n''" }

/-- It is written to a new file below the root, and read from there. -/
theorem tricky_survives : ∃ w', writeFile default ⟨"/host.toml"⟩ tricky = .ok w' ∧
    readFile w' ⟨"/host.toml"⟩ = .ok tricky :=
  ⟨_, rfl, (survives tricky).file default ⟨"/host.toml"⟩ _ rfl⟩

end Config

end ScriptSessions
