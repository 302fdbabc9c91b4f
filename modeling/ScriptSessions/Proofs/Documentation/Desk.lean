import ScriptSessions.Documentation.Lookup

set_option autoImplicit false

/-! # Searches and lookups side by side

A `Desk` is a registry together with everybody who uses it: the calls that look for the provider
of a module (`Inquiry`), and the lookups of the providers that these calls have come to. Any of
them may take the next step, in whatever world there is then (`Desk.perform`), so a run of a
desk is any interleaving of them with any changes of the files in between.

A desk also writes down who did what: in which worlds a call has worked, which calls have come to
the point of insertion, which lookups have begun, and who has read a file in which world. Nothing
that happens depends on these records.

What a step can do is said once, by `Inquiry.Move` and `Lookup.Move` for the one who takes it and
by `Desk.Change` for the desk.
-/

namespace ScriptSessions.Documentation

/-! ## Calls -/

/-- A call that looks for the provider of a module, and how it came to where it is. -/
structure Inquiry where
  path : Path
  /-- The world of the first step, by which the key is determined. -/
  world? : Option World
  /-- The worlds in which candidates were looked at, in order. -/
  looks : List World
  search : Search

namespace Inquiry

/-- A call that has not begun. -/
def start (path : Path) : Inquiry := ⟨path, none, [], .asking path⟩

/-- The documentation key of the path, as the call has found it. -/
def key? (q : Inquiry) : Option Path := q.world?.map fun w => key w.directory q.path

/-- The provider that the call has returned. -/
def provider? (q : Inquiry) : Option Provider :=
  match q.search with
  | .done p => some p
  | .asking _ | .probing _ _ | .choosing _ _ => none

/-- The key under which the call is about to insert a provider. -/
def inserting? (q : Inquiry) : Option Path :=
  match q.search with
  | .choosing key _ => some key
  | .asking _ | .probing _ _ | .done _ => none

/-- One step of a call, which is a step of its search. -/
def step (w : World) (r : Registry) (q : Inquiry) : Inquiry × Registry :=
  let next := q.search.step w r
  match q.search with
  | .asking _ => ({ q with search := next.1, world? := some w }, next.2)
  | .probing _ (_ :: _) => ({ q with search := next.1, looks := q.looks ++ [w] }, next.2)
  | .probing _ [] | .choosing _ _ | .done _ => ({ q with search := next.1 }, next.2)

/-- What a call can do in one step: it may become another one while the registry becomes another
one. -/
inductive Move (w : World) (r : Registry) (q : Inquiry) : Inquiry → Registry → Prop where
  /-- The key has a provider. -/
  | known (path : Path) (p : Provider) (hq : q.search = .asking path)
      (h : r.table.lookup (key w.directory path) = some p) :
      Move w r q { q with search := .done p, world? := some w } r
  /-- The key has no provider, and the candidates are to be looked at. -/
  | unknown (path : Path) (hq : q.search = .asking path)
      (h : r.table.lookup (key w.directory path) = none) :
      Move w r q { q with
        search := .probing (key w.directory path) (r.candidates (key w.directory path))
        world? := some w } r
  /-- The next candidate is a regular file. -/
  | hit (key file : Path) (rest : List Path) (hq : q.search = .probing key (file :: rest))
      (h : w.isFile file = true) :
      Move w r q { q with search := .choosing key (some file), looks := q.looks ++ [w] } r
  /-- The next candidate is none. -/
  | miss (key file : Path) (rest : List Path) (hq : q.search = .probing key (file :: rest))
      (h : w.isFile file = false) :
      Move w r q { q with search := .probing key rest, looks := q.looks ++ [w] } r
  /-- All candidates have been looked at. -/
  | exhaust (key : Path) (hq : q.search = .probing key []) :
      Move w r q { q with search := .choosing key none } r
  /-- Another call has inserted a provider for the key. -/
  | late (key : Path) (file : Option Path) (p : Provider) (hq : q.search = .choosing key file)
      (h : r.table.lookup key = some p) :
      Move w r q { q with search := .done p } r
  /-- The call inserts a provider for the file that it has found. -/
  | insert (key : Path) (file : Option Path) (hq : q.search = .choosing key file)
      (h : r.table.lookup key = none) :
      Move w r q { q with search := .done (r.insert key file).1 } (r.insert key file).2
  /-- The call is over. -/
  | idle (p : Provider) (hq : q.search = .done p) : Move w r q q r

theorem move_step (w : World) (r : Registry) (q : Inquiry) :
    q.Move w r (q.step w r).1 (q.step w r).2 := by
  obtain ⟨path, world?, looks, search⟩ := q
  cases search with
  | asking path' =>
      simp only [step, Search.step]
      split
      · next p h => exact .known path' p rfl h
      · next h => exact .unknown path' rfl h
  | probing key files =>
      cases files with
      | nil => exact .exhaust key rfl
      | cons file rest =>
          simp only [step, Search.step]
          split
          · next h => exact .hit key file rest rfl h
          · next h => exact .miss key file rest rfl (Bool.eq_false_iff.mpr h)
  | choosing key file =>
      simp only [step, Search.step]
      split
      · next p h => exact .late key file p rfl h
      · next h => exact .insert key file rfl h
  | done p => exact .idle p rfl

/-- A call that is over does not move any more. -/
theorem Move.eq_of_provider? {w : World} {r r' : Registry} {q q' : Inquiry} {p : Provider}
    (h : q.Move w r q' r') (hp : q.provider? = some p) : q' = q := by
  cases h with
  | idle => rfl
  | known _ _ hq | unknown _ hq | hit _ _ _ hq | miss _ _ _ hq | exhaust _ hq | late _ _ _ hq
  | insert _ _ hq => simp [provider?, hq] at hp

end Inquiry

/-! ## Lookups -/

namespace Lookup

/-- What a lookup can do in one step beside the lookups `others`. -/
inductive Move (w : World) (others : List Lookup) (r : Registry) (l : Lookup) :
    Lookup → Registry → Prop where
  /-- The members are known. -/
  | find (m : Members) (hl : l.stage = .arriving ∨ l.stage = .waiting)
      (h : r.contents.lookup l.provider.id = some m) :
      Move w others r l ⟨l.provider, .finished m⟩ r
  /-- Another lookup of the provider is reading. -/
  | wait (o : Lookup) (hl : l.stage = .arriving ∨ l.stage = .waiting)
      (h : r.contents.lookup l.provider.id = none) (ho : o ∈ others)
      (loading : o.isLoading = true) (same : o.provider.id = l.provider.id) :
      Move w others r l ⟨l.provider, .waiting⟩ r
  /-- The lookup is the one that reads. -/
  | begin (hl : l.stage = .arriving ∨ l.stage = .waiting)
      (h : r.contents.lookup l.provider.id = none)
      (free : ∀ o ∈ others, o.isLoading = true → o.provider.id ≠ l.provider.id) :
      Move w others r l ⟨l.provider, .reading⟩ r
  /-- The file is read. -/
  | read (hl : l.stage = .reading) :
      Move w others r l ⟨l.provider, .storing (Registry.read w l.provider)⟩ r
  /-- What has been read becomes known. -/
  | store (m : Members) (hl : l.stage = .storing m) :
      Move w others r l ⟨l.provider, .finished m⟩
        { r with contents := (l.provider.id, m) :: r.contents }
  /-- The lookup is over, or was given up. -/
  | idle (hl : l.stage = .left ∨ ∃ m, l.stage = .finished m) : Move w others r l l r

theorem move_step (w : World) (others : List Lookup) (r : Registry) (l : Lookup) :
    l.Move w others r (l.step w others r).1 (l.step w others r).2 := by
  have henter (hl : l.stage = .arriving ∨ l.stage = .waiting) :
      l.Move w others r { l with stage := enter others r l.provider } r := by
    unfold enter
    split
    · next m h => exact .find m hl h
    · next h =>
        split
        · next hany =>
            obtain ⟨o, ho, hloading⟩ := List.any_eq_true.mp hany
            rw [Bool.and_eq_true, beq_iff_eq] at hloading
            exact .wait o hl h ho hloading.1 hloading.2
        · next hfree =>
            refine .begin hl h fun o ho hloading hsame => hfree ?_
            exact List.any_eq_true.mpr ⟨o, ho, by simp [hloading, hsame]⟩
  obtain ⟨p, stage⟩ := l
  cases stage with
  | arriving => exact henter (.inl rfl)
  | waiting => exact henter (.inr rfl)
  | reading => exact .read rfl
  | storing m => exact .store m rfl
  | finished m => exact .idle (.inr ⟨m, rfl⟩)
  | left => exact .idle (.inl rfl)

/-- A lookup changes nothing of a registry but what is known of the members. -/
theorem Move.registry {w : World} {others : List Lookup} {r r' : Registry} {l l' : Lookup}
    (h : l.Move w others r l' r') : ∃ contents, r' = { r with contents } := by
  cases h with
  | find | wait | begin | read | idle => exact ⟨r.contents, rfl⟩
  | store => exact ⟨_, rfl⟩

end Lookup

/-! ## The desk -/

/-- A reading of the file of a provider: which lookup has read, and in which world. -/
structure Reading where
  provider : Provider
  lookup : Nat
  world : World

/-- What a reading has found: the members that the text of the file documents, as it was in the
world of the reading. There are none if the provider has no file or no text can be read there. -/
def Reading.members (ρ : Reading) : Members :=
  match ρ.provider.source.map ρ.world.readText with
  | some (.ok content) => .ofText content
  | some (.error _) | none => []

/-- A lookup reads what its reading finds. -/
theorem Reading.members_eq (ρ : Reading) : ρ.members = Registry.read ρ.world ρ.provider := by
  obtain ⟨⟨id, source⟩, j, w⟩ := ρ
  cases source with
  | none => rfl
  | some file =>
      rw [members, Registry.read, Option.map_some]
      dsimp only
      cases w.readText file <;> rfl

/-- A registry, and those who use it. -/
structure Desk where
  registry : Registry
  inquiries : List Inquiry
  lookups : List Lookup
  /-- The calls that have come to the point of insertion, in order, with their keys. -/
  insertions : List (Path × Nat)
  /-- The lookups that have begun, in order, with their providers. -/
  begun : List (Provider × Nat)
  /-- The readings, in order. -/
  readings : List Reading

namespace Desk

/-- A desk that no one has come to. -/
def new (directories : Directories) : Desk := ⟨.new directories, [], [], [], [], []⟩

/-- The desk after the lookup at a place has taken a step in a world. -/
def turned (w : World) (d : Desk) (j : Nat) (l l' : Lookup) (r : Registry) : Desk :=
  { d with
    registry := r
    lookups := d.lookups.set j l'
    begun := d.begun ++ if l.stage = .arriving then [(l.provider, j)] else []
    readings := d.readings ++ if l.stage = .reading then [⟨l.provider, j, w⟩] else [] }

/-- The desk after the call at a place has taken a step. -/
def advanced (d : Desk) (i : Nat) (q q' : Inquiry) (r : Registry) : Desk :=
  { d with
    registry := r
    inquiries := d.inquiries.set i q'
    insertions := d.insertions ++ (q.inserting?.map (·, i)).toList }

section Fields

variable (w : World) (d : Desk) (i : Nat) (q q' : Inquiry) (l l' : Lookup) (r : Registry)

theorem registry_turned : (d.turned w i l l' r).registry = r := rfl

theorem lookups_turned : (d.turned w i l l' r).lookups = d.lookups.set i l' := rfl

theorem registry_advanced : (d.advanced i q q' r).registry = r := rfl

end Fields

/-- What may happen at a desk. -/
inductive Action where
  /-- A call comes. -/
  | inquire (path : Path)
  /-- A call takes a step. -/
  | advance (i : Nat)
  /-- A lookup of the provider comes that a call has returned. -/
  | ask (i : Nat)
  /-- A lookup takes a step. -/
  | turn (j : Nat)
  /-- A lookup is given up. -/
  | leave (j : Nat)

/-- What happens at a desk in a world. -/
def perform (w : World) (d : Desk) : Action → Desk
  | .inquire path => { d with inquiries := d.inquiries ++ [.start path] }
  | .advance i =>
    match d.inquiries[i]? with
    | none => d
    | some q =>
      let next := q.step w d.registry
      d.advanced i q next.1 next.2
  | .ask i =>
    match d.inquiries[i]?.bind Inquiry.provider? with
    | none => d
    | some p => { d with lookups := d.lookups ++ [.start p] }
  | .turn j =>
    match d.lookups[j]? with
    | none => d
    | some l =>
      let next := l.step w (d.lookups.eraseIdx j) d.registry
      d.turned w j l next.1 next.2
  | .leave j =>
    match d.lookups[j]? with
    | none => d
    | some l => { d with lookups := d.lookups.set j l.leave }

/-- A run of a desk: what happens, one after another, each in its own world. -/
def run (d : Desk) (events : List (World × Action)) : Desk :=
  events.foldl (fun d e => d.perform e.1 e.2) d

/-- What can become of a desk in one step. -/
inductive Change (w : World) (d : Desk) : Desk → Prop where
  | idle : Change w d d
  | inquire (path : Path) : Change w d { d with inquiries := d.inquiries ++ [.start path] }
  | advance (i : Nat) (q q' : Inquiry) (r : Registry) (hi : d.inquiries[i]? = some q)
      (hmove : q.Move w d.registry q' r) :
      Change w d (d.advanced i q q' r)
  | ask (i : Nat) (q : Inquiry) (p : Provider) (hi : d.inquiries[i]? = some q)
      (hp : q.provider? = some p) :
      Change w d { d with lookups := d.lookups ++ [.start p] }
  | turn (j : Nat) (l l' : Lookup) (r : Registry) (hj : d.lookups[j]? = some l)
      (hmove : l.Move w (d.lookups.eraseIdx j) d.registry l' r) :
      Change w d (d.turned w j l l' r)
  | leave (j : Nat) (l : Lookup) (hj : d.lookups[j]? = some l) :
      Change w d { d with lookups := d.lookups.set j l.leave }

theorem change_perform (d : Desk) (w : World) (a : Action) : d.Change w (d.perform w a) := by
  cases a with
  | inquire path => exact .inquire path
  | advance i =>
      simp only [perform]
      split
      · exact .idle
      · next q h => exact .advance i q _ _ h (q.move_step w d.registry)
  | ask i =>
      simp only [perform]
      split
      · exact .idle
      · next p h =>
          obtain ⟨q, hi, hp⟩ := Option.bind_eq_some_iff.mp h
          exact .ask i q p hi hp
  | turn j =>
      simp only [perform]
      split
      · exact .idle
      · next l h => exact .turn j l _ _ h (l.move_step w (d.lookups.eraseIdx j) d.registry)
  | leave j =>
      simp only [perform]
      split
      · exact .idle
      · next l h => exact .leave j l h

/-- Whatever every step keeps, a run keeps. -/
theorem run_induction {P : Desk → Prop} (step : ∀ w d d', d.Change w d' → P d → P d') {d : Desk}
    (h : P d) (events : List (World × Action)) : P (d.run events) := by
  induction events generalizing d with
  | nil => exact h
  | cons e rest ih => exact ih (step e.1 d _ (d.change_perform e.1 e.2) h)

end Desk

end ScriptSessions.Documentation
