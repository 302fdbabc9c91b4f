import ScriptSessions.Path.Basic
import ScriptSessions.Text.Search

set_option autoImplicit false

/-! # Names that are no text

A name on a disk is a row of bytes, and the bytes need not be UTF-8. Such a *raw name* stands
in a path as a text of its own, its label, which occurs nowhere else. What is shown of it is
another text, with a replacement character wherever its bytes are none.

So a path is a text on the disk too if none of its segments is the label of a raw name, and a
text that was made from paths is shown by showing the raw names in it.
-/

namespace ScriptSessions

/-- A name that is no text. -/
structure RawName where
  /-- What stands for the name in paths. -/
  label : String
  /-- What is shown of the name. -/
  shown : String
deriving DecidableEq, Repr, Inhabited

/-- Whether a path is a text on the disk. -/
def Path.isText (raw : List RawName) (p : Path) : Bool :=
  p.segments.all fun s => raw.all fun n => n.label != s

/-- A text with what is shown of the raw names in it. -/
def Text.shown (raw : List RawName) (s : String) : String :=
  String.ofList (raw.foldl (fun cs n => substitute n.label.toList n.shown.toList cs) s.toList)

/-- A path as it is shown. -/
def Path.shown (raw : List RawName) (p : Path) : Path := ⟨Text.shown raw p.text⟩

@[simp] theorem Text.shown_nil (s : String) : Text.shown [] s = s := String.ofList_toList

@[simp] theorem Path.shown_nil (p : Path) : p.shown [] = p :=
  congrArg Path.mk (Text.shown_nil p.text)

@[simp] theorem Path.isText_nil (p : Path) : p.isText [] = true := by
  simp [isText]

end ScriptSessions
