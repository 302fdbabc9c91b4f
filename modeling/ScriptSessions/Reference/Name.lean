import ScriptSessions.Path.Extension
import ScriptSessions.Text.AsciiFold

set_option autoImplicit false

/-! # Names of modules

A module is a compiled library on disk. Its file may end in one of three extensions, and the
stem may carry the platform suffix `.ni`; the *simple name* of the module is what is left of
the file name once one extension and then one suffix are taken away. Simple names are
compared without regard to ASCII case.

A location without slash and backslash is a *bare* name: it names an assembly that is looked
up in the search directories, not a file.
-/

namespace ScriptSessions.Reference

open Text

/-- The extensions of loadable modules. -/
def moduleExtensions : List String := ["dll", "exe", "winmd"]

/-- The suffix of the stem of a module that was compiled for one platform. -/
def platformSuffix : List Char := ['.', 'n', 'i']

/-- A location without any path separator names an assembly and not a file. -/
def isBareName (location : String) : Bool :=
  !location.toList.contains '/' && !location.toList.contains '\\'

/-- Whether a text is the extension of a module, in any ASCII case. -/
def isModuleExtension (ext : String) : Bool := moduleExtensions.any (sameFolded · ext)

/-- Whether a name ends in a dot and the extension of a module. -/
def hasModuleExtension (name : String) : Bool :=
  match Path.cutAtLastDot? name.toList with
  | none => false
  | some (_, ext) => isModuleExtension (String.ofList ext)

/-- A name without the extension of a module. -/
def stripModuleExtension (cs : List Char) : List Char :=
  match Path.cutAtLastDot? cs with
  | none => cs
  | some (stem, ext) => if isModuleExtension (String.ofList ext) then stem else cs

/-- A name without the platform suffix. -/
def stripPlatformSuffix (cs : List Char) : List Char :=
  if platformSuffix.isSuffixOf cs then cs.take (cs.length - platformSuffix.length) else cs

/-- A name without one module extension and then without one platform suffix. -/
def stripSuffixes (name : String) : String :=
  String.ofList (stripPlatformSuffix (stripModuleExtension name.toList))

/-- The simple name of the module at a path. -/
def simpleName (p : Path) : String := stripSuffixes (p.fileName?.getD "")

/-- Whether a simple name is the one that a query asks for. The query may be written with an
extension and a platform suffix. -/
def nameMatches (simple query : String) : Bool := sameFolded simple (stripSuffixes query)

end ScriptSessions.Reference
