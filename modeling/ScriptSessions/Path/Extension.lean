import ScriptSessions.Path.Basic

set_option autoImplicit false

/-! # File extensions

The extension of a file name is what stands after its last dot, provided that something
stands before that dot.
-/

namespace ScriptSessions.Path

/-- A list of characters cut at its last dot, which belongs to neither part. -/
def cutAtLastDot? (cs : List Char) : Option (List Char × List Char) :=
  let tail := cs.reverse.takeWhile (· != '.')
  match cs.reverse.dropWhile (· != '.') with
  | [] => none
  | _ :: front => some (front.reverse, tail.reverse)

/-- The stem and the extension of a file name. A name that begins with its only dot has no
extension. -/
def splitExtension? (name : String) : Option (String × String) :=
  match cutAtLastDot? name.toList with
  | none => none
  | some ([], _) => none
  | some (stem, ext) => some (String.ofList stem, String.ofList ext)

/-- A file name with its extension replaced, or added if it has none. When the stem is a
single dot no file name is left, and the result is the step `..`. -/
def withExtension (name ext : String) : String :=
  match splitExtension? name with
  | none => name ++ "." ++ ext
  | some (stem, _) => if stem = "." then ".." else stem ++ "." ++ ext

end ScriptSessions.Path
