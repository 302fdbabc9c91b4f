import ScriptSessions.Path.Absolute
import ScriptSessions.Reference.Error
import ScriptSessions.Reference.Name
import ScriptSessions.Text.Blank

set_option autoImplicit false

/-! # Keys of locations

The spellings of one module share a key. A bare name keeps its text, a path is made absolute
and collapsed, and in both cases the last name loses its module extension and its platform
suffix. Blanks around a location do not count, and a blank location has no key.
-/

namespace ScriptSessions.Reference

/-- The normal form of a location. -/
structure Key where
  text : String
deriving DecidableEq, Repr, Inhabited

namespace Key

/-- The key of the place that is reached through the given names: the path of the directory
above it, joined with the last name without its suffixes. The root has the empty key. -/
def ofNames (names : List String) : Key :=
  match names.getLast? with
  | none => ⟨""⟩
  | some last => ⟨(Path.ofNames names.dropLast / stripSuffixes last).text⟩

/-- The key of a location seen from a current directory. -/
def normalize (cwd : Path) (location : String) : Except Error Key :=
  let location := Text.trim location
  if location = "" then .error (.notFound "")
  else if isBareName location then .ok ⟨stripSuffixes location⟩
  else .ok (ofNames (Path.names cwd ⟨location⟩))

end Key

end ScriptSessions.Reference
