import ScriptSessions.Documentation.Provider
import ScriptSessions.Session.Snapshot

set_option autoImplicit false

/-! # The configuration of a host -/

namespace ScriptSessions

/-- How a host is set up. -/
structure Config where
  /-- The directory that is searched first for bare assembly names. -/
  runtimeDirectory : Option Path := none
  /-- The root of the reference assemblies. -/
  referenceAssembliesPath : Option Path := none
  /-- The directory of the reference documentation. -/
  documentationPath : Option Path := none
  /-- Locations that are added to the default references. -/
  extraReferences : List String := []
  /-- Namespaces that are added to the default imports. -/
  extraImports : List String := []
  /-- Whether a session that is opened asks for a pass at once. -/
  reprocessOnOpen : Bool := true
  /-- Which messages the log shows. -/
  logFilter : String := "scripthost=info"
  /-- How scripts are compiled unless a session says otherwise. -/
  compilationOptions : CompilationOptions := {}
deriving DecidableEq, Repr

namespace Config

instance : Inhabited Config := ⟨{}⟩

/-- The directories that the platform offers. -/
def directories (c : Config) : Documentation.Directories :=
  { referenceAssemblies := c.referenceAssembliesPath, documentation := c.documentationPath }

/-- Where bare assembly names are looked up: the runtime directory, and then the reference
assemblies. -/
def searchDirectories (c : Config) : List Path :=
  c.runtimeDirectory.toList ++ c.referenceAssembliesPath.toList

end Config

end ScriptSessions
