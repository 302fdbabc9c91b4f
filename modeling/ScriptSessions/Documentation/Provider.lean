import ScriptSessions.Documentation.Members
import ScriptSessions.Path.Extension
import ScriptSessions.World

set_option autoImplicit false

/-! # Documentation providers

Every module has a documentation provider. The modules whose paths differ only in their
extension share one: the registry keeps the provider under the *documentation key* of the
module, its collapsed path with the extension `xml`. A provider stands for the first regular
file among the key itself, the file of the same name in the documentation directory and the
file of the same name among the reference assemblies; if there is none, it is the one empty
provider that all such modules share.

A search for a provider (`Search`) looks at the disk once per step, so that other searches
and changes of the files may come between. Whichever search inserts first decides, and
everyone who comes later is given what it inserted. `Registry.providerFor` is the search run
without a break.
-/

namespace ScriptSessions.Documentation

/-- The directories that the platform offers besides those of the modules. -/
structure Directories where
  /-- The root of the reference assemblies, which holds the facades. -/
  referenceAssemblies : Option Path := none
  /-- The directory of the reference documentation. -/
  documentation : Option Path := none
deriving DecidableEq, Repr, Inhabited

/-- A documentation provider: its identity, and the file it stands for. -/
structure Provider where
  id : Nat
  source : Option Path
deriving DecidableEq, Repr, Inhabited

/-- The provider that documents nothing. -/
def Provider.empty : Provider := ⟨0, none⟩

/-- Whether a provider has no file. -/
def Provider.isEmpty (p : Provider) : Bool := p.source.isNone

/-- The key under which the provider of a module is kept. -/
def key (cwd modulePath : Path) : Path :=
  if modulePath.text = "" then modulePath
  else
    let names := Path.names cwd modulePath
    match names.getLast? with
    | none => Path.ofNames names
    | some last => Path.ofNames (names.dropLast ++ [Path.withExtension last "xml"])

/-! ## The registry -/

/-- The providers found so far, and what has been read of them. -/
structure Registry where
  directories : Directories
  /-- The provider kept under each key, in the order of insertion. -/
  table : List (Path × Provider)
  /-- The members of the providers whose file has been read. -/
  contents : List (Nat × Members)
  /-- The identity of the next provider. -/
  nextId : Nat

namespace Registry

/-- The registry that knows no provider but the empty one. -/
def new (directories : Directories) : Registry := ⟨directories, [], [], 1⟩

instance : Inhabited Registry := ⟨new {}⟩

/-- The files that may document the modules of a key, in order of preference. -/
def candidates (r : Registry) (key : Path) : List Path :=
  match key.fileName? with
  | none => []
  | some name =>
    key :: ((r.directories.documentation.map (· / name)).toList ++
      (r.directories.referenceAssemblies.map (· / name)).toList)

theorem length_candidates_le (r : Registry) (key : Path) : (r.candidates key).length ≤ 3 := by
  simp only [candidates]
  split
  · simp
  · cases r.directories.documentation <;> cases r.directories.referenceAssemblies <;> simp

/-- The number of keys that have a provider. -/
def size (r : Registry) : Nat := r.table.length

/-- Keeps a provider for the given file under a key that has none. -/
def insert (r : Registry) (key : Path) (file : Option Path) : Provider × Registry :=
  match file with
  | none => (.empty, { r with table := r.table ++ [(key, .empty)] })
  | some f =>
    let p : Provider := ⟨r.nextId, some f⟩
    (p, { r with table := r.table ++ [(key, p)], nextId := r.nextId + 1 })

end Registry

/-! ## Searching -/

/-- How far a search for the provider of a module has come. -/
inductive Search where
  /-- The registry has not been asked yet. -/
  | asking (modulePath : Path)
  /-- The key is unknown, and these files are still to be looked at. -/
  | probing (key : Path) (candidates : List Path)
  /-- All looking is done, and the registry is about to be told. -/
  | choosing (key : Path) (file : Option Path)
  /-- The provider is known. -/
  | done (provider : Provider)
deriving DecidableEq, Repr

namespace Search

/-- One step of a search. -/
def step (w : World) (r : Registry) : Search → Search × Registry
  | .asking modulePath =>
    let key := key w.directory modulePath
    match r.table.lookup key with
    | some provider => (.done provider, r)
    | none => (.probing key (r.candidates key), r)
  | .probing key [] => (.choosing key none, r)
  | .probing key (file :: rest) =>
    if w.isFile file then (.choosing key (some file), r) else (.probing key rest, r)
  | .choosing key file =>
    match r.table.lookup key with
    | some provider => (.done provider, r)
    | none =>
      let (provider, r) := r.insert key file
      (.done provider, r)
  | .done provider => (.done provider, r)

/-- A bound on the steps that a search still takes. -/
def remaining : Search → Nat
  | .asking _ => 6
  | .probing _ files => files.length + 2
  | .choosing _ _ => 1
  | .done _ => 0

theorem remaining_step_lt (w : World) (r : Registry) (s : Search) (h : 0 < s.remaining) :
    (s.step w r).1.remaining < s.remaining := by
  cases s with
  | asking modulePath =>
      simp only [step]
      split
      · simp [remaining]
      · have := r.length_candidates_le (key w.directory modulePath)
        simp only [remaining]; omega
  | probing key files =>
      cases files with
      | nil => simp [step, remaining]
      | cons file rest => simp only [step]; split <;> simp [remaining]
  | choosing key file => simp only [step]; split <;> simp [remaining]
  | done provider => simp [remaining] at h

/-- Takes the remaining steps of a search without a break. -/
def finish (w : World) (r : Registry) (s : Search) : Provider × Registry :=
  match s with
  | .done provider => (provider, r)
  | .asking path =>
    let next := (Search.asking path).step w r
    finish w next.2 next.1
  | .probing key files =>
    let next := (Search.probing key files).step w r
    finish w next.2 next.1
  | .choosing key file =>
    let next := (Search.choosing key file).step w r
    finish w next.2 next.1
termination_by s.remaining
decreasing_by all_goals exact remaining_step_lt w r _ (by simp [remaining])

end Search

namespace Registry

/-- The provider of a module. -/
def providerFor (w : World) (r : Registry) (modulePath : Path) : Provider × Registry :=
  Search.finish w r (.asking modulePath)

end Registry

end ScriptSessions.Documentation
