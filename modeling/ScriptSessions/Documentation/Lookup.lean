import ScriptSessions.Documentation.Provider

set_option autoImplicit false

/-! # Looking up members

The file behind a provider is read once, at the first question about a member, and all answers
are those of that reading: a summary is what the members that were read give for the id of a
member, and the number of members is their number.

A *lookup* is one such question. It takes the members that are known, and waits while another
lookup of the same provider is about to find them; otherwise it reads the file and makes them
known (`Lookup.step`). Between two steps other lookups may run, files may change, and the lookup
may be given up; then nothing has become known, and another lookup may read.
`Registry.members` is a lookup that runs without a break and alone.
-/

namespace ScriptSessions.Documentation

namespace Registry

/-- Whether the file of a provider has been read. -/
def isLoaded (r : Registry) (p : Provider) : Bool := (r.contents.lookup p.id).isSome

/-- What reading the file of a provider gives now. A file that cannot be read documents
nothing. -/
def read (w : World) (p : Provider) : Members :=
  match p.source with
  | none => []
  | some file =>
    match w.readText file with
    | .error _ => []
    | .ok content => Members.ofText content

end Registry

/-- How far a lookup has come. -/
inductive Lookup.Stage where
  /-- Nothing has been done. -/
  | arriving
  /-- Another lookup of the provider is reading. -/
  | waiting
  /-- The file is about to be read. -/
  | reading
  /-- The file has been read, and the members are about to become known. -/
  | storing (m : Members)
  /-- The members are known. -/
  | finished (m : Members)
  /-- The lookup was given up. -/
  | left
deriving DecidableEq, Repr

/-- A question about the members of a provider. -/
structure Lookup where
  provider : Provider
  stage : Lookup.Stage
deriving DecidableEq, Repr

namespace Lookup

/-- A lookup that has not begun. -/
def start (p : Provider) : Lookup := ⟨p, .arriving⟩

/-- Whether a lookup keeps the others of its provider from reading. -/
def isLoading (l : Lookup) : Bool :=
  match l.stage with
  | .reading | .storing _ => true
  | .arriving | .waiting | .finished _ | .left => false

/-- The members that a lookup has come to. -/
def members? (l : Lookup) : Option Members :=
  match l.stage with
  | .finished m => some m
  | .arriving | .waiting | .reading | .storing _ | .left => none

/-- What a lookup does when it comes to the members of its provider. -/
def enter (others : List Lookup) (r : Registry) (p : Provider) : Stage :=
  match r.contents.lookup p.id with
  | some m => .finished m
  | none =>
    if others.any (fun o => o.isLoading && o.provider.id == p.id) then .waiting else .reading

/-- One step of a lookup beside the others. -/
def step (w : World) (others : List Lookup) (r : Registry) (l : Lookup) : Lookup × Registry :=
  match l.stage with
  | .arriving | .waiting => ({ l with stage := enter others r l.provider }, r)
  | .reading => ({ l with stage := .storing (Registry.read w l.provider) }, r)
  | .storing m =>
    ({ l with stage := .finished m }, { r with contents := (l.provider.id, m) :: r.contents })
  | .finished _ | .left => (l, r)

/-- Gives up a lookup that is not over. -/
def leave (l : Lookup) : Lookup :=
  match l.stage with
  | .finished _ => l
  | .arriving | .waiting | .reading | .storing _ | .left => { l with stage := .left }

end Lookup

/-- The members of a provider: three steps of a lookup that is alone. -/
def Registry.members (w : World) (r : Registry) (p : Provider) : Members × Registry :=
  let (l, r) := (Lookup.start p).step w [] r
  let (l, r) := l.step w [] r
  let (l, r) := l.step w [] r
  (l.members?.getD [], r)

end ScriptSessions.Documentation
