import ScriptSessions.Files.Basic
import ScriptSessions.Files.Error
import ScriptSessions.Path.Absolute

set_option autoImplicit false

/-! # The world a session looks at

A `World` is a tree of files together with the current directory from which relative paths
are read. Examining a path walks the tree step by step: every step but the last must lead to
a directory, `..` leads back to the directory above, and a slash at the end asks for a
directory. The walk reports the first step that fails, so a missing directory is found
before a name that is too long behind it.

Nothing here remembers an earlier look: the answer depends on the files as they are now.
-/

namespace ScriptSessions

/-- A tree of files and the current directory. -/
structure World where
  directory : Path
  files : FileTree

instance : Inhabited World := ⟨⟨⟨"/"⟩, .empty⟩⟩

namespace World

/-! ## Walking -/

/-- Follows the segments of a path from a place in the tree. -/
def walk (files : FileTree) : List String → Place → Except FileError Place
  | [], place => .ok place
  | s :: rest, place =>
    match files.find? place with
    | none => .error .missing
    | some (.file _) => .error .notADirectory
    | some .directory =>
      if s = "" ∨ s = "." then walk files rest place
      else if s = ".." then walk files rest place.dropLast
      else if s.utf8ByteSize > 255 then .error .nameTooLong
      else if (files.find? (place ++ [s])).isSome then walk files rest (place ++ [s])
      else .error .missing

/-- The place that a path leads to. -/
def locate (w : World) (p : Path) : Except FileError Place :=
  if p.text.toList.contains '\x00' then .error .nulInName
  else if p.text = "" then .error .missing
  else if p.text.utf8ByteSize ≥ 4096 then .error .nameTooLong
  else walk w.files p.segments (if p.isAbsolute then [] else w.directory.steps)

/-! ## Looking -/

/-- What stands at a path. -/
def examine (w : World) (p : Path) : Except FileError FileNode :=
  match w.locate p with
  | .error e => .error e
  | .ok place => ((w.files.find? place).map Except.ok).getD (.error .missing)

/-- Whether anything stands at a path. -/
def holds (w : World) (p : Path) : Bool :=
  match w.examine p with
  | .ok _ => true
  | .error _ => false

/-- Whether a regular file stands at a path. -/
def isFile (w : World) (p : Path) : Bool :=
  match w.examine p with
  | .ok (.file _) => true
  | _ => false

/-- The text of the file at a path. -/
def readText (w : World) (p : Path) : Except FileError String :=
  match w.examine p with
  | .error e => .error e
  | .ok .directory => .error .isADirectory
  | .ok (.file content) =>
    match content.text? with
    | none => .error .notUtf8
    | some s => .ok s

/-- The paths of what stands in the directory at a path, none if there is no such directory. -/
def entriesOf (w : World) (p : Path) : List Path :=
  match w.locate p with
  | .error _ => []
  | .ok place =>
    match w.files.find? place with
    | some .directory => (w.files.children place).map fun name => p / name
    | _ => []

/-! ## Changing -/

/-- Writes a text to the file at a path, whose directory must be there. -/
def writeText (w : World) (p : Path) (s : String) : Except FileError World :=
  match w.locate p with
  | .ok place =>
    match w.files.find? place with
    | some .directory => .error .isADirectory
    | _ => .ok { w with files := w.files.set place (.file (.text s)) }
  | .error .missing =>
    match p.segments.getLast? with
    | none => .error .missing
    | some last =>
      if last = "" ∨ last = "." ∨ last = ".." then .error .isADirectory
      else
        let front : Path := ⟨"/".intercalate (p.segments.dropLast ++ ["."])⟩
        match w.locate front with
        | .error e => .error e
        | .ok place => .ok { w with files := w.files.set (place ++ [last]) (.file (.text s)) }
  | .error e => .error e

/-- Puts a file at a path and makes the directories that lead there. -/
def putFile (w : World) (p : Path) (content : FileContent) : World :=
  { w with files := w.files.putFile (Path.names w.directory p) content }

/-- Makes a directory at a path, with those that lead there. -/
def makeDirectories (w : World) (p : Path) : World :=
  { w with files := w.files.makeDirectories (Path.names w.directory p) }

/-- Removes what stands at a path. -/
def erase (w : World) (p : Path) : World :=
  { w with files := w.files.erase (Path.names w.directory p) }

/-- The same files seen from another current directory. -/
def enter (w : World) (p : Path) : World :=
  { w with directory := (Path.collapsed? w.directory p).getD w.directory }

end World

end ScriptSessions
