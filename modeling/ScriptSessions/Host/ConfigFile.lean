import ScriptSessions.Host.Config
import ScriptSessions.Toml.Parser
import ScriptSessions.Toml.Printer

set_option autoImplicit false

/-! # Configuration files

A configuration is written as a TOML document: its settings in order, and then a table with
the compilation options. A path that is not set has no entry. Reading takes every setting
that is missing from the default configuration, and passes over entries that it does not
know.
-/

namespace ScriptSessions

open Toml

/-! ## Reading settings -/

/-- A text. -/
def Toml.Item.string? : Item → Option String
  | .string s => some s
  | _ => none

/-- A truth value. -/
def Toml.Item.bool? : Item → Option Bool
  | .bool b => some b
  | _ => none

/-- A number of one byte. -/
def Toml.Item.byte? : Item → Option UInt8
  | .integer n => if 0 ≤ n ∧ n < 256 then some (UInt8.ofNat n.toNat) else none
  | _ => none

/-- A list of texts. -/
def Toml.Item.strings? : Item → Option (List String)
  | .array items => items.mapM string?
  | _ => none

/-- A path. -/
def Toml.Item.path? (i : Item) : Option Path := i.string?.map Path.mk

/-- A setting, or its default if it is missing. -/
def Toml.Entries.setting? {α : Type} (entries : Entries) (name : String)
    (read : Item → Option α) (default : α) : Option α :=
  match entries.lookup name with
  | none => some default
  | some item => read item

/-! ## Compilation options -/

/-- The names of the compilation options in a configuration file. -/
def CompilationOptions.settingNames : List String :=
  ["language_version", "optimize", "allow_unsafe", "check_overflow", "warning_level"]

/-- The compilation options among the entries of a table. -/
def CompilationOptions.ofEntries? (entries : Entries) : Option CompilationOptions := do
  let default : CompilationOptions := {}
  some
    { languageVersion :=
        ← entries.setting? "language_version" Item.string? default.languageVersion
      optimize := ← entries.setting? "optimize" Item.bool? default.optimize
      allowUnsafe := ← entries.setting? "allow_unsafe" Item.bool? default.allowUnsafe
      checkOverflow := ← entries.setting? "check_overflow" Item.bool? default.checkOverflow
      warningLevel := ← entries.setting? "warning_level" Item.byte? default.warningLevel }

/-- Compilation options from an item: a table, or an array of the options in order, which may
end early and of which further items do not count. A point in time counts as a table without
options. -/
def CompilationOptions.ofItem? : Item → Option CompilationOptions
  | .table _ entries => ofEntries? entries
  | .array items => ofEntries? (settingNames.zip items)
  | .moment => ofEntries? []
  | _ => none

/-- The settings that write compilation options down. -/
def CompilationOptions.settings (o : CompilationOptions) : List (String × Setting) :=
  [("language_version", .string o.languageVersion), ("optimize", .bool o.optimize),
   ("allow_unsafe", .bool o.allowUnsafe), ("check_overflow", .bool o.checkOverflow),
   ("warning_level", .natural o.warningLevel.toNat)]

/-! ## Configurations -/

namespace Config

/-- The name of the table with the compilation options. -/
def optionsTable : String := "compilation_options"

/-- The configuration among the entries of a document. -/
def ofEntries? (entries : Entries) : Option Config := do
  let default : Config := {}
  let path? (name : String) : Option (Option Path) :=
    entries.setting? name (fun item => item.path?.map some) none
  some
    { runtimeDirectory := ← path? "runtime_directory"
      referenceAssembliesPath := ← path? "reference_assemblies_path"
      documentationPath := ← path? "documentation_path"
      extraReferences :=
        ← entries.setting? "extra_references" Item.strings? default.extraReferences
      extraImports := ← entries.setting? "extra_imports" Item.strings? default.extraImports
      reprocessOnOpen := ← entries.setting? "reprocess_on_open" Item.bool? default.reprocessOnOpen
      logFilter := ← entries.setting? "log_filter" Item.string? default.logFilter
      compilationOptions :=
        ← entries.setting? optionsTable CompilationOptions.ofItem? default.compilationOptions }

/-- The configuration that a document describes. -/
def ofToml? (s : String) : Option Config := (Toml.ofText? s).bind ofEntries?

/-- The entry of a path, if it is set. -/
def pathSetting (name : String) (p : Option Path) : List (String × Setting) :=
  p.toList.map fun p => (name, .string p.text)

/-- The settings that write a configuration down, apart from the compilation options. -/
def settings (c : Config) : List (String × Setting) :=
  pathSetting "runtime_directory" c.runtimeDirectory ++
    pathSetting "reference_assemblies_path" c.referenceAssembliesPath ++
    pathSetting "documentation_path" c.documentationPath ++
    [("extra_references", .strings c.extraReferences),
     ("extra_imports", .strings c.extraImports),
     ("reprocess_on_open", .bool c.reprocessOnOpen),
     ("log_filter", .string c.logFilter)]

/-- The document with the given settings and compilation options. -/
def document (settings options : List (String × Setting)) : String :=
  String.ofList (renderEntries settings ++ renderHeader optionsTable ++ renderEntries options)

/-- A configuration as a document. -/
def toToml (c : Config) : String := document c.settings c.compilationOptions.settings

end Config

end ScriptSessions
