set_option autoImplicit false

/-! # Paths

A path is kept as the text it was written as, because two spellings of one place are
different answers wherever a path is shown. What a path *means* is read off its text: the
*segments* between its slashes, and among them the *steps*, which are the segments other
than the empty one and `.`. A path is absolute when it begins with a slash.

`Path.join` puts a relative path below another one and is the only operation here that
builds a text from two. `Path.ofNames` writes a list of names as an absolute path.
-/

namespace ScriptSessions

/-- The text of a path. -/
structure Path where
  text : String
deriving DecidableEq, Repr, Inhabited

namespace Path

instance : ToString Path := ⟨Path.text⟩

/-! ## Reading a path -/

/-- A path is absolute when it begins with a slash. -/
def isAbsolute (p : Path) : Bool := p.text.toList.head? == some '/'

/-- The pieces of a text between its slashes. -/
def splitAtSlashes : List Char → List (List Char)
  | [] => [[]]
  | c :: rest =>
    if c = '/' then [] :: splitAtSlashes rest
    else match splitAtSlashes rest with
      | [] => [[c]]
      | s :: ss => (c :: s) :: ss

/-- The segments of a path: the pieces of its text between its slashes. -/
def segments (p : Path) : List String := (splitAtSlashes p.text.toList).map String.ofList

/-- The steps of a path: its segments other than the empty one and `.`. -/
def steps (p : Path) : List String := p.segments.filter fun s => s != "" && s != "."

/-- The name of the file that a path designates: its last step, unless that is `..`. -/
def fileName? (p : Path) : Option String :=
  match p.steps.getLast? with
  | some ".." => none
  | last => last

/-! ## Writing a path -/

/-- The absolute path through the given names. -/
def ofNames (names : List String) : Path := ⟨"/" ++ "/".intercalate names⟩

/-- `base.join p` is the place `p` seen from `base`: an absolute `p` stands for itself, and
any other is written after `base`, with a slash between the two unless `base` is empty or
ends in one. -/
def join (base p : Path) : Path :=
  if p.isAbsolute then p
  else if base.text.toList.getLast?.getD '/' == '/' then ⟨base.text ++ p.text⟩
  else ⟨base.text ++ "/" ++ p.text⟩

instance : HDiv Path String Path := ⟨fun base name => base.join ⟨name⟩⟩

/-! ## The parent of a path as written -/

/-- Drops slashes and `/.` from the end of a text that is given back to front; a text that
is a slash alone stays. -/
def dropIdleEnd : List Char → List Char
  | ['/'] => ['/']
  | '/' :: rest => dropIdleEnd rest
  | '.' :: '/' :: rest => dropIdleEnd ('/' :: rest)
  | cs => cs

/-- The text of a path before its last step, without idle slashes at its end. The root and
the empty path have no parent. -/
def parent? (p : Path) : Option Path :=
  match dropIdleEnd p.text.toList.reverse with
  | [] => none
  | ['/'] => none
  | body => some ⟨String.ofList (dropIdleEnd (body.dropWhile (· != '/'))).reverse⟩

end Path

end ScriptSessions
