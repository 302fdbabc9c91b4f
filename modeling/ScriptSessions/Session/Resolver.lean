import ScriptSessions.Reference.Key

set_option autoImplicit false

/-! # From a directive to a location

The values of directives are relative to the working directory of the session. A reference
that is a plain assembly name is passed on as it is; anything with a separator or with a
module extension names a file. A session may be given a resolver of its own, which is asked
first, with the directive value exactly as it is written.
-/

namespace ScriptSessions

open Reference

/-- How the references of a session are turned into locations. -/
structure Resolver where
  workingDirectory : Path
  /-- What the resolver of the session's own says of a directive value: its location, or why it
  has none. It need not say anything. -/
  answer? : String → Option (Except Reference.Error String) := fun _ => none
deriving Inhabited

namespace Resolver

/-- A path seen from a base directory; an absolute path stands for itself. -/
def underBase (base : Path) (value : String) : Path := base / value

/-- The location of a reference value seen from a base directory. -/
def locationUnder (base : Path) (value : String) : Except Reference.Error String :=
  let value := Text.trim value
  if value = "" then .error (.notFound "")
  else if isBareName value && !hasModuleExtension value then .ok value
  else .ok (underBase base value).text

/-- The location of a reference value. -/
def location (r : Resolver) (value : String) : Except Reference.Error String :=
  match r.answer? value with
  | some result => result
  | none => locationUnder r.workingDirectory value

/-- The path of a script that is to be loaded. -/
def scriptPath (r : Resolver) (value : String) : Path :=
  underBase r.workingDirectory (Text.trim value)

end Resolver

end ScriptSessions
