set_option autoImplicit false

/-! # Why a file operation fails

The causes, and the text of each one.
-/

namespace ScriptSessions

/-- The reason why a file cannot be examined, read or written. -/
inductive FileError where
  /-- Nothing stands at the path. -/
  | missing
  /-- A step of the path leads through something that is not a directory. -/
  | notADirectory
  /-- A directory stands where a file is wanted. -/
  | isADirectory
  /-- A name on the path, or the path as a whole, exceeds the allowed length. -/
  | nameTooLong
  /-- The path contains the character NUL. -/
  | nulInName
  /-- The file is not text in UTF-8. -/
  | notUtf8
deriving DecidableEq, Repr, Inhabited

/-- The text of a file error. -/
def FileError.message : FileError → String
  | .missing => "No such file or directory (os error 2)"
  | .notADirectory => "Not a directory (os error 20)"
  | .isADirectory => "Is a directory (os error 21)"
  | .nameTooLong => "File name too long (os error 36)"
  | .nulInName => "file name contained an unexpected NUL byte"
  | .notUtf8 => "stream did not contain valid UTF-8"

end ScriptSessions
