import ScriptSessions.Files.Error
import ScriptSessions.Path.Basic

set_option autoImplicit false

/-! # Why a location does not resolve -/

namespace ScriptSessions.Reference

/-- The reason why no module is found at a location. -/
inductive Error where
  /-- No search directory holds the assembly, or nothing stands at the path. -/
  | notFound (location : String)
  /-- What stands at the path is not a regular file. -/
  | notAFile (path : Path)
  /-- The path cannot be examined. -/
  | io (path : Path) (cause : FileError)
deriving DecidableEq, Repr, Inhabited

/-- The text of a resolution error. -/
def Error.message : Error → String
  | .notFound location => s!"Reference not found: {location}"
  | .notAFile path => s!"Reference is not a loadable module: {path}"
  | .io path cause => s!"I/O error resolving {path}: {cause.message}"

end ScriptSessions.Reference
