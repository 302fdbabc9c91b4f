import ScriptSessions.Documentation.Lookup
import ScriptSessions.Reference.Key

set_option autoImplicit false

/-! # The cache of resolved references

An *entry* is a module together with its documentation provider. Entries have an identity:
two entries are the same when both their modules and their providers are the same objects,
however equal they may look.

The cache tracks keys. A tracked key owns a cell, which starts empty and is filled at most
once; a key is dropped again only while its cell is empty. How a cell is filled is the matter
of `ScriptSessions.Reference.Fetch`.
-/

namespace ScriptSessions.Reference

open Documentation (Provider)

/-- A compiled library on disk. -/
structure Module where
  name : String
  path : Path
deriving DecidableEq, Repr, Inhabited

/-- The module at a path. -/
def Module.ofPath (p : Path) : Module := ⟨simpleName p, p⟩

/-- Whether a query asks for a module by name. -/
def Module.matchesName (m : Module) (query : String) : Bool := nameMatches m.name query

/-- A module with its documentation provider. `id` is the identity of the module object. -/
structure Entry where
  id : Nat
  module : Module
  documentation : Provider
deriving DecidableEq, Repr, Inhabited

namespace Entry

/-- The simple name of the module of an entry. -/
def name (e : Entry) : String := e.module.name

/-- The path of the module of an entry. -/
def path (e : Entry) : Path := e.module.path

/-- Whether two entries are made of the same objects. -/
def sameAs (a b : Entry) : Bool :=
  a.id == b.id && a.documentation.id == b.documentation.id

theorem sameAs_refl (a : Entry) : a.sameAs a = true := by simp [sameAs]

theorem sameAs_comm (a b : Entry) : a.sameAs b = b.sameAs a := by
  rw [sameAs, sameAs, Bool.beq_comm, Bool.beq_comm (a := a.documentation.id)]

end Entry

/-! ## Cells -/

/-- The identity of a cell. -/
abbrev CellId := Nat

/-- The cache: the cells of the tracked keys and what the filled cells hold. -/
structure Cache where
  /-- Where bare names are looked up, in order. -/
  searchDirectories : List Path
  documentation : Documentation.Registry
  /-- The cell of each tracked key. -/
  cells : List (Key × CellId)
  /-- What each filled cell holds. -/
  filled : List (CellId × Entry)
  nextCell : CellId
  /-- The identity of the next module object. -/
  nextEntry : Nat

namespace Cache

/-- The cache that tracks no key. -/
def new (searchDirectories : List Path) (documentation : Documentation.Registry) : Cache :=
  ⟨searchDirectories, documentation, [], [], 0, 0⟩

instance : Inhabited Cache := ⟨new [] default⟩

/-- What a cell holds. -/
def entryOf? (c : Cache) (cell : CellId) : Option Entry := c.filled.lookup cell

/-- The entry of a key. -/
def entryAt? (c : Cache) (key : Key) : Option Entry := (c.cells.lookup key).bind c.entryOf?

/-- The entry of a location, if it has been resolved. -/
def get? (cwd : Path) (c : Cache) (location : String) : Option Entry :=
  match Key.normalize cwd location with
  | .error _ => none
  | .ok key => c.entryAt? key

/-- The number of keys whose cell is filled. -/
def size (c : Cache) : Nat := (c.cells.filter fun p => (c.entryOf? p.2).isSome).length

/-- The number of keys that have a cell, filled or not. -/
def trackedKeys (c : Cache) : Nat := c.cells.length

/-- The cell of a key, a fresh one if the key is not tracked. -/
def obtain (c : Cache) (key : Key) : CellId × Cache :=
  match c.cells.lookup key with
  | some cell => (cell, c)
  | none =>
    (c.nextCell, { c with cells := c.cells ++ [(key, c.nextCell)], nextCell := c.nextCell + 1 })

/-- Fills a cell with a new entry for the module at a path. -/
def fill (c : Cache) (cell : CellId) (path : Path) (documentation : Provider) : Entry × Cache :=
  let entry : Entry := ⟨c.nextEntry, .ofPath path, documentation⟩
  (entry, { c with filled := (cell, entry) :: c.filled, nextEntry := c.nextEntry + 1 })

/-- Stops tracking a key, provided that the given cell is its cell and is empty. -/
def forget (c : Cache) (key : Key) (cell : CellId) : Cache :=
  if c.cells.lookup key = some cell ∧ c.entryOf? cell = none then
    { c with cells := c.cells.filter fun p => p.1 != key }
  else c

end Cache

end ScriptSessions.Reference
