import ScriptSessions.Reference.Fetch
import ScriptSessions.Reference.WellKnown

set_option autoImplicit false

/-! # The default references and imports

Every session starts from the same references and imports. The references come from three
sources, one after the other: the assemblies of the well-known types, extra locations, and
the facades of the platform. Entries are kept by the folded simple name of their module; a
later entry takes the place of an earlier one of the same name, so facades win. A location
that does not resolve is left out.

The imports are a fixed list, the namespaces of the well-known types and extra imports, each
at its first occurrence.
-/

namespace ScriptSessions.Reference

/-! ## Ordered sets and tables -/

/-- A list without repetitions, each element at its first occurrence. -/
def distinct {α : Type} [DecidableEq α] (l : List α) : List α :=
  l.foldl (fun acc a => if a ∈ acc then acc else acc ++ [a]) []

/-- A table with a value recorded under a key: in the place of the old value, or at the end. -/
def record {α : Type} (table : List (String × α)) (key : String) (value : α) :
    List (String × α) :=
  match table with
  | [] => [(key, value)]
  | (k, v) :: rest => if k = key then (key, value) :: rest else (k, v) :: record rest key value

/-! ## The set -/

/-- References and imports that every session starts from. -/
structure DefaultSet where
  /-- The entries by folded simple name. -/
  table : List (String × Entry) := []
  imports : List String := []
  /-- The folded simple names of the facades. -/
  facades : List String := []

instance : Inhabited DefaultSet := ⟨{}⟩

/-- The folded name under which a default reference is kept. -/
def nameKey (name : String) : String := Text.foldAscii (stripSuffixes name)

namespace DefaultSet

/-- The default references, in order. -/
def references (s : DefaultSet) : List Entry := s.table.map (·.2)

/-- The number of default references. -/
def size (s : DefaultSet) : Nat := s.table.length

/-- The default reference of a name. -/
def get? (s : DefaultSet) (name : String) : Option Entry := s.table.lookup (nameKey name)

/-- Whether there is a default reference of a name. -/
def containsName (s : DefaultSet) (name : String) : Bool := (s.get? name).isSome

/-- Whether a facade of this name was found. -/
def isFacade (s : DefaultSet) (name : String) : Bool := s.facades.contains (nameKey name)

/-- The set with an entry recorded under its own name. -/
def insert (s : DefaultSet) (e : Entry) : DefaultSet :=
  { s with table := record s.table (nameKey e.name) e }

/-- The set with an entry that comes from a facade. -/
def insertFacade (s : DefaultSet) (e : Entry) : DefaultSet :=
  { s.insert e with facades := distinct (s.facades ++ [nameKey e.name]) }

/-! ## Building -/

/-- What a default set is built from. -/
structure Sources where
  wellKnown : List WellKnownType := wellKnownTypes
  extraReferences : List String := []
  extraImports : List String := []

/-- Whether the file name of a path has the extension `dll`, in any ASCII case. -/
def hasFacadeExtension (p : Path) : Bool :=
  match Path.splitExtension? (p.fileName?.getD "") with
  | none => false
  | some (_, ext) => Text.sameFolded ext "dll"

/-- The locations of the facades: the entries of the facades directory with the extension of a
facade, sorted by name. -/
def facadeLocations (w : World) (directories : Documentation.Directories) : List String :=
  match directories.referenceAssemblies with
  | none => []
  | some root =>
    (((w.entriesOf (facadesDirectory root)).filter hasFacadeExtension).map Path.text).mergeSort
      (fun a b => decide (a ≤ b))

/-- The set with the entries of the locations that resolve, in order. -/
def addAll (w : World) (add : DefaultSet → Entry → DefaultSet) :
    DefaultSet → Cache → List String → DefaultSet × Cache
  | s, c, [] => (s, c)
  | s, c, location :: rest =>
    match c.resolve w location with
    | (.ok entry, c) => addAll w add (add s entry) c rest
    | (.error _, c) => addAll w add s c rest

/-- The default set of the given sources on a platform that offers the given directories, resolved
through a cache. -/
def buildOn (w : World) (directories : Documentation.Directories) (c : Cache)
    (sources : Sources) : DefaultSet × Cache :=
  let (s, c) := addAll w insert {} c (distinct (sources.wellKnown.map (·.assembly)))
  let (s, c) := addAll w insert s c sources.extraReferences
  let (s, c) := addAll w insertFacade s c (facadeLocations w directories)
  ({ s with imports := distinct (defaultImports ++
      sources.wellKnown.filterMap WellKnownType.namespace? ++ sources.extraImports) }, c)

/-- The default set of the given sources on the platform that the cache has been set up for. -/
def build (w : World) (c : Cache) (sources : Sources) : DefaultSet × Cache :=
  buildOn w c.documentation.directories c sources

end DefaultSet

end ScriptSessions.Reference
