import ScriptSessions.Check.Report
import ScriptSessions.Host.Config
import ScriptSessions.Json.Basic

set_option autoImplicit false

/-! # Records as JSON

The records that are exchanged with other programs, as JSON values. Reading accepts more than
writing produces: members in any order, unknown members, and records in the form of an array.
Of missing fields only those without a value and those with a default are made up for.
-/

namespace ScriptSessions

open Json

/-! ## Paths and identifiers -/

/-- A path as JSON. -/
def Path.toJson (p : Path) : Json := .string p.text

/-- Reads a path. -/
def Path.ofJson? (j : Json) : Option Path := j.string?.map Path.mk

/-- A UUID as JSON. -/
def Uuid.toJson (u : Uuid) : Json := .string u.toText

/-- Reads a UUID. -/
def Uuid.ofJson? (j : Json) : Option Uuid := j.string?.bind Uuid.ofText?

/-! ## Diagnostics -/

/-- A severity as JSON. -/
def Severity.toJson (s : Severity) : Json := .string s.label

/-- Reads a severity, which is a word or an object with that word as its only name. -/
def Severity.ofJson? : Json → Option Severity
  | .string label => ofLabel? label
  | .object [(some label, .null)] => ofLabel? label
  | _ => none

/-- A diagnostic as JSON. -/
def Diagnostic.toJson (d : Diagnostic) : Json :=
  ofMembers [("code", .string d.code), ("severity", d.severity.toJson),
    ("message", .string d.message), ("line", ofOption (fun n => .natural n.toNat) d.line)]

/-- Reads a diagnostic. -/
def Diagnostic.ofJson? (j : Json) : Option Diagnostic := do
  match ← fields? ["code", "severity", "message", "line"] j with
  | [code, severity, message, line] =>
    some { code := ← required? string? code
           severity := ← required? Severity.ofJson? severity
           message := ← required? string? message
           line := ← optional? word64? line }
  | _ => none

/-- An event as JSON. -/
def DiagnosticsEvent.toJson (e : DiagnosticsEvent) : Json :=
  ofMembers [("session_id", e.sessionId.toJson),
    ("document_version", .natural e.documentVersion.toNat),
    ("diagnostics", .array (e.diagnostics.map Diagnostic.toJson))]

/-- Reads an event. -/
def DiagnosticsEvent.ofJson? (j : Json) : Option DiagnosticsEvent := do
  match ← fields? ["session_id", "document_version", "diagnostics"] j with
  | [id, version, diagnostics] =>
    some { sessionId := ← required? Uuid.ofJson? id
           documentVersion := ← required? word64? version
           diagnostics := ← required? (list? Diagnostic.ofJson?) diagnostics }
  | _ => none

/-! ## Reports -/

/-- A reported reference as JSON. -/
def ReportedReference.toJson (r : ReportedReference) : Json :=
  ofMembers [("name", .string r.name), ("path", r.path.toJson),
    ("documented", .bool r.documented)]

/-- Reads a reported reference. -/
def ReportedReference.ofJson? (j : Json) : Option ReportedReference := do
  match ← fields? ["name", "path", "documented"] j with
  | [name, path, documented] =>
    some { name := ← required? string? name
           path := ← required? Path.ofJson? path
           documented := ← required? bool? documented }
  | _ => none

/-- A report on a script as JSON. -/
def CheckReport.toJson (r : CheckReport) : Json :=
  ofMembers [("session_id", r.sessionId.toJson), ("project_name", .string r.projectName),
    ("text_version", .natural r.textVersion.toNat),
    ("directives", .array (r.directives.map .string)),
    ("references", .array (r.references.map ReportedReference.toJson)),
    ("loaded_sources", .array (r.loadedScripts.map Path.toJson)),
    ("diagnostics", .array (r.diagnostics.map Diagnostic.toJson))]

/-- Reads a report on a script. -/
def CheckReport.ofJson? (j : Json) : Option CheckReport := do
  match ← fields? ["session_id", "project_name", "text_version", "directives", "references",
      "loaded_sources", "diagnostics"] j with
  | [id, name, version, directives, references, scripts, diagnostics] =>
    some { sessionId := ← required? Uuid.ofJson? id
           projectName := ← required? string? name
           textVersion := ← required? word64? version
           directives := ← required? (list? string?) directives
           references := ← required? (list? ReportedReference.ofJson?) references
           loadedScripts := ← required? (list? Path.ofJson?) scripts
           diagnostics := ← required? (list? Diagnostic.ofJson?) diagnostics }
  | _ => none

/-! ## Modules and directories -/

/-- A module as JSON. -/
def Reference.Module.toJson (m : Reference.Module) : Json :=
  ofMembers [("name", .string m.name), ("path", m.path.toJson)]

/-- Reads a module. -/
def Reference.Module.ofJson? (j : Json) : Option Reference.Module := do
  match ← fields? ["name", "path"] j with
  | [name, path] =>
    some { name := ← required? string? name, path := ← required? Path.ofJson? path }
  | _ => none

/-- The directories of the platform as JSON. -/
def Documentation.Directories.toJson (d : Documentation.Directories) : Json :=
  ofMembers [("reference_assemblies", ofOption Path.toJson d.referenceAssemblies),
    ("documentation", ofOption Path.toJson d.documentation)]

/-- Reads the directories of the platform. -/
def Documentation.Directories.ofJson? (j : Json) : Option Documentation.Directories := do
  match ← fields? ["reference_assemblies", "documentation"] j with
  | [assemblies, documentation] =>
    some { referenceAssemblies := ← optional? Path.ofJson? assemblies
           documentation := ← optional? Path.ofJson? documentation }
  | _ => none

/-! ## Options and configurations -/

/-- The names of the fields of compilation options. -/
def CompilationOptions.fieldNames : List String :=
  ["language_version", "optimize", "allow_unsafe", "check_overflow", "warning_level"]

/-- Compilation options as JSON. -/
def CompilationOptions.toJson (o : CompilationOptions) : Json :=
  ofMembers [("language_version", .string o.languageVersion), ("optimize", .bool o.optimize),
    ("allow_unsafe", .bool o.allowUnsafe), ("check_overflow", .bool o.checkOverflow),
    ("warning_level", .natural o.warningLevel.toNat)]

/-- Reads compilation options. -/
def CompilationOptions.ofJson? (j : Json) : Option CompilationOptions := do
  let default : CompilationOptions := {}
  match ← defaultedFields? fieldNames j with
  | [version, optimize, unchecked, overflow, level] =>
    some { languageVersion := ← orDefault? string? default.languageVersion version
           optimize := ← orDefault? bool? default.optimize optimize
           allowUnsafe := ← orDefault? bool? default.allowUnsafe unchecked
           checkOverflow := ← orDefault? bool? default.checkOverflow overflow
           warningLevel := ← orDefault? byte? default.warningLevel level }
  | _ => none

/-- A configuration as JSON. -/
def Config.toJson (c : Config) : Json :=
  ofMembers [("runtime_directory", ofOption Path.toJson c.runtimeDirectory),
    ("reference_assemblies_path", ofOption Path.toJson c.referenceAssembliesPath),
    ("documentation_path", ofOption Path.toJson c.documentationPath),
    ("extra_references", .array (c.extraReferences.map .string)),
    ("extra_imports", .array (c.extraImports.map .string)),
    ("reprocess_on_open", .bool c.reprocessOnOpen),
    ("log_filter", .string c.logFilter),
    ("compilation_options", c.compilationOptions.toJson)]

/-- Reads a configuration. -/
def Config.ofJson? (j : Json) : Option Config := do
  let default : Config := {}
  match ← defaultedFields? ["runtime_directory", "reference_assemblies_path",
      "documentation_path", "extra_references", "extra_imports", "reprocess_on_open",
      "log_filter", "compilation_options"] j with
  | [runtime, assemblies, documentation, references, imports, reprocess, filter, options] =>
    some { runtimeDirectory := ← optional? Path.ofJson? runtime
           referenceAssembliesPath := ← optional? Path.ofJson? assemblies
           documentationPath := ← optional? Path.ofJson? documentation
           extraReferences := ← orDefault? (list? string?) default.extraReferences references
           extraImports := ← orDefault? (list? string?) default.extraImports imports
           reprocessOnOpen := ← orDefault? bool? default.reprocessOnOpen reprocess
           logFilter := ← orDefault? string? default.logFilter filter
           compilationOptions :=
             ← orDefault? CompilationOptions.ofJson? default.compilationOptions options }
  | _ => none

end ScriptSessions
