import ScriptSessions.Path.Basic

set_option autoImplicit false

/-! # Absolute and collapsed paths

A relative path is read from a current directory. `Path.absolute?` writes it as an absolute
path and leaves the steps `..` in place; `Path.collapsed?` also lets each `..` take back the
step before it, staying at the root when there is none, so that every spelling of one place
becomes one text. Both look at the text of the path alone and not at any file. The empty
path designates nothing and has neither form.
-/

namespace ScriptSessions.Path

/-! ## Collapsing -/

/-- Lets each step `..` take back the step before it. -/
def collapseSteps (steps : List String) : List String :=
  steps.foldl (fun names s => if s = ".." then names.dropLast else names ++ [s]) []

/-- The names on the way from the root to the place that `p` designates, seen from the
directory `cwd`. -/
def names (cwd p : Path) : List String :=
  collapseSteps (if p.isAbsolute then p.steps else cwd.steps ++ p.steps)

/-- The absolute path of the place that `p` designates, without `.` and `..`. -/
def collapsed? (cwd p : Path) : Option Path :=
  if p.text = "" then none else some (ofNames (names cwd p))

/-! ## Absolute paths as written -/

/-- Where the absolute form of a path starts: at the current directory for a relative path,
else at the root. A path with exactly two leading slashes keeps both. -/
def absoluteStart (cwd p : Path) : Path :=
  match p.text.toList with
  | '/' :: '/' :: '/' :: _ => ⟨"/"⟩
  | '/' :: '/' :: _ => ⟨"//"⟩
  | '/' :: _ => ⟨"/"⟩
  | _ => cwd

/-- The absolute form of a path, in which the steps `..` and a final slash are kept. -/
def absolute? (cwd p : Path) : Option Path :=
  if p.text = "" then none
  else
    let body := p.steps.foldl (fun base s => base / s) (absoluteStart cwd p)
    some (if p.text.toList.getLast? = some '/' then body / "" else body)

end ScriptSessions.Path
