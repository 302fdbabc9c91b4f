import ScriptSessions.Path.Extension

set_option autoImplicit false

/-! # The library surface that every session sees

A well-known type stands for the assembly that defines it: the assembly is referenced by
default, and the namespace of the type is imported by default.
-/

namespace ScriptSessions.Reference

/-- A library type and the simple name of the assembly that defines it. -/
structure WellKnownType where
  typeName : String
  assembly : String
deriving DecidableEq, Repr, Inhabited

/-- The part of a type name before its last dot. -/
def WellKnownType.namespace? (t : WellKnownType) : Option String :=
  (Path.cutAtLastDot? t.typeName.toList).map fun p => String.ofList p.1

/-- The types whose assemblies make up the default references. -/
def wellKnownTypes : List WellKnownType :=
  [⟨"System.Object", "System.Runtime"⟩,
   ⟨"System.Console", "System.Console"⟩,
   ⟨"System.Linq.Enumerable", "System.Linq"⟩,
   ⟨"System.Collections.Generic.List`1", "System.Collections"⟩,
   ⟨"System.Text.RegularExpressions.Regex", "System.Text.RegularExpressions"⟩,
   ⟨"System.Net.Http.HttpClient", "System.Net.Http"⟩,
   ⟨"System.Threading.Tasks.Task", "System.Runtime"⟩,
   ⟨"System.IO.File", "System.Runtime"⟩]

/-- The namespaces that every session imports. -/
def defaultImports : List String :=
  ["System", "System.IO", "System.Collections.Generic", "System.Linq", "System.Text",
   "System.Threading.Tasks"]

/-- The name of the directory of facades below the reference assemblies. -/
def facadesDirectoryName : String := "Facades"

/-- The directory of facades below the reference assemblies. -/
def facadesDirectory (referenceAssemblies : Path) : Path :=
  referenceAssemblies / facadesDirectoryName

end ScriptSessions.Reference
