set_option autoImplicit false

/-! # A tree of files

The files of a machine as a value: what stands at each place, a place being the list of
names that leads to it from the root. The root is always a directory. A file is put in place
together with the directories above it, and then stands in the way of nothing: what was
there before is replaced.
-/

namespace ScriptSessions

/-- What a file holds: a text, or bytes that need not be one. -/
inductive FileContent where
  | text (s : String)
  | bytes (b : ByteArray)

instance : Inhabited FileContent := ⟨.text ""⟩

/-- The text of a file, if its bytes are UTF-8. -/
def FileContent.text? : FileContent → Option String
  | .text s => some s
  | .bytes b => String.fromUTF8? b

/-- What can stand at a place. -/
inductive FileNode where
  | directory
  | file (content : FileContent)

instance : Inhabited FileNode := ⟨.directory⟩

/-- The names that lead from the root to a place. -/
abbrev Place := List String

/-- A tree of files, as the list of the places where something stands, latest first. -/
structure FileTree where
  entries : List (Place × FileNode)

namespace FileTree

/-- The tree in which only the root stands. -/
def empty : FileTree := ⟨[]⟩

instance : Inhabited FileTree := ⟨empty⟩

/-! ## Looking -/

/-- What stands at a place. -/
def find? (t : FileTree) (place : Place) : Option FileNode :=
  if place = [] then some .directory else t.entries.lookup place

/-- The names that stand in a directory. -/
def children (t : FileTree) (place : Place) : List String :=
  t.entries.filterMap fun e => if e.1.dropLast = place then e.1.getLast? else none

/-! ## Changing -/

/-- The tree without what stands at a place. -/
def erase (t : FileTree) (place : Place) : FileTree :=
  ⟨t.entries.filter fun e => e.1 != place⟩

/-- The tree with a node put at a place. -/
def set (t : FileTree) (place : Place) (node : FileNode) : FileTree :=
  ⟨(place, node) :: (t.erase place).entries⟩

/-- The tree with a directory at a place and with the directories above it; what already
stands there stays. -/
def makeDirectories (t : FileTree) (place : Place) : FileTree :=
  ((List.range place.length).map fun n => place.take (n + 1)).foldl
    (fun t p => if (t.find? p).isSome then t else t.set p .directory) t

/-- The tree with a file put at a place, below the directories that lead there. -/
def putFile (t : FileTree) (place : Place) (content : FileContent) : FileTree :=
  (t.makeDirectories place.dropLast).set place (.file content)

end FileTree

end ScriptSessions
