import ScriptSessions.Proofs.Host.Closing
import ScriptSessions.Proofs.Host.Opening

set_option autoImplicit false

/-! # The books of a host

Sessions are opened and closed through the host, and inserted into its registry and removed from it
directly. Each of these answers its client, and the answers are the books of the registry
(`Host.records`), together with the project names that are handed out (`Host.names`). The operations
come in any order, with any candidates for the identifiers of new sessions; whatever an operation
does to the registry is what its records say (`Host.books_operate`).

So the two tables and the counter of the registry are in step with the books and with each other at
any time (`Host.Bookkept`).
-/

namespace ScriptSessions.Host

open SessionRegistry

/-! ## Operations and their records -/

/-- Something that is done to the sessions of a host or to its registry. -/
inductive Operation where
  /-- A session is opened under one of the candidate identifiers. -/
  | openSession (w : World) (request : OpenRequest) (ids : List Uuid)
  | close (id : Uuid)
  | shutdown
  /-- A client makes a session that is not registered. -/
  | make (s : Session)
  /-- A session is registered directly, with some callback or with none. -/
  | insert (n : SessionNumber) (callback : Option SessionNumber)
  /-- Whatever is registered under an identifier is removed directly. -/
  | remove (id : Uuid)
  /-- A project name is handed out directly. -/
  | takeName

/-- The host after an operation. -/
def operate (h : Host) : Operation → Host
  | .openSession w request ids => (h.open? w request ids).2
  | .close id => (h.close id).2
  | .shutdown => h.shutdown
  | .make s => { h with workspace := (h.workspace.addSession s).2 }
  | .insert n callback =>
    match h.workspace.session? n with
    | none => h
    | some s => h.withRegistry (h.workspace.registry.insert s.id n callback).2
  | .remove id => h.withRegistry (h.workspace.registry.remove id).2
  | .takeName => h.withRegistry h.workspace.registry.nextProjectName.2

/-- The insertion that opening a session answers with. -/
def opening (h : Host) (w : World) (request : OpenRequest) (ids : List Uuid) : List Record :=
  match h.open? w request ids with
  | (none, _) => []
  | (some n, t) =>
    ((t.workspace.session? n).map fun s =>
      .inserted s.id n (if request.wantsDiagnostics then some n else none)).toList

/-- The removals that closing sessions one after another answers with. -/
def closings (h : Host) : List Uuid → List Record
  | [] => []
  | id :: rest => (if (h.close id).1 then [.removed id] else []) ++ (h.close id).2.closings rest

/-- What an operation writes in the books. -/
def records (h : Host) : Operation → List Record
  | .openSession w request ids => h.opening w request ids
  | .close id => h.closings [id]
  | .shutdown => h.closings h.workspace.registry.ids
  | .insert n callback =>
    match h.workspace.session? n with
    | none => []
    | some s =>
      if (h.workspace.registry.insert s.id n callback).1 then [.inserted s.id n callback] else []
  | .remove id => if (h.workspace.registry.remove id).1.isSome then [.removed id] else []
  | .make _ | .takeName => []

/-- The project names that an operation hands out, also those for candidates that are taken. -/
def names (h : Host) : Operation → List String
  | .openSession _ _ ids => h.workspace.registry.namesTried ids
  | .takeName => [h.workspace.registry.nextProjectName.1]
  | .close _ | .shutdown | .make _ | .insert _ _ | .remove _ => []

/-- The host after a list of operations. -/
def operateAll (h : Host) (ops : List Operation) : Host := ops.foldl operate h

/-- The books of a list of operations. -/
def recordsOf (h : Host) : List Operation → List Record
  | [] => []
  | op :: rest => h.records op ++ (h.operate op).recordsOf rest

/-- The project names that a list of operations hands out. -/
def namesOf (h : Host) : List Operation → List String
  | [] => []
  | op :: rest => h.names op ++ (h.operate op).namesOf rest

/-! ## The books are kept -/

/-- Closing says whether a session was registered. -/
theorem close_eq_contains (h : Host) (id : Uuid) :
    (h.close id).1 = h.workspace.registry.contains id := by
  simp only [close]
  split <;> rfl

theorem books_closings (ids : List Uuid) (h : Host) :
    Books h.workspace.registry (h.closings ids) []
      (ids.foldl (fun h id => (h.close id).2) h).workspace.registry := by
  induction ids generalizing h with
  | nil => exact .start
  | cons id rest ih =>
      have hclose := (Books.start (r := h.workspace.registry)).remove id
      rw [← registry_close, ← close_eq_contains] at hclose
      exact hclose.trans (ih (h.close id).2)

theorem books_opening (h : Host) (w : World) (request : OpenRequest) (ids : List Uuid) :
    Books h.workspace.registry (h.opening w request ids) (h.workspace.registry.namesTried ids)
      (h.open? w request ids).2.workspace.registry := by
  have hnames := h.workspace.registry.books_afterNames ids
  rcases opens_open? w h request ids with ⟨-, hnone⟩ | ⟨n, s, hsome, hopens⟩
  · have hrecords : h.opening w request ids = [] := by rw [opening, hnone]
    rw [hrecords, hnone]
    exact hnames
  · have at_n := hopens.session?
    have hrecords : h.opening w request ids
        = [.inserted s.id n (if request.wantsDiagnostics then some n else none)] := by
      unfold opening
      split
      · next hopen => rw [hopen] at hsome; cases hsome
      · next m t hopen =>
          rw [hopen] at hsome at_n
          obtain rfl := Option.some.inj hsome
          rw [at_n]
          rfl
    have hfree : (h.workspace.registry.afterNames ids).contains s.id = false := hopens.free
    rw [hrecords, hopens.registry]
    exact hnames.insert s.id n _ hfree

/-- What an operation does to the registry is what its records say. -/
theorem books_operate (h : Host) (op : Operation) :
    Books h.workspace.registry (h.records op) (h.names op) (h.operate op).workspace.registry := by
  cases op with
  | openSession w request ids => exact h.books_opening w request ids
  | close id => exact books_closings [id] h
  | shutdown => exact books_closings h.workspace.registry.ids h
  | make s => exact .start
  | insert n callback =>
      simp only [records, operate, names]
      split
      · exact .start
      · next s at_n =>
          cases hid : h.workspace.registry.contains s.id with
          | true =>
              rw [insert_of_taken hid]
              exact .start
          | false =>
              have hok : (h.workspace.registry.insert s.id n callback).1 = true := by
                simp [SessionRegistry.insert, hid]
              rw [if_pos hok]
              exact Books.start.insert s.id n callback hid
  | remove id => exact Books.start.remove id
  | takeName => exact Books.start.name

theorem books_operateAll (h : Host) (ops : List Operation) :
    Books h.workspace.registry (h.recordsOf ops) (h.namesOf ops)
      (h.operateAll ops).workspace.registry := by
  induction ops generalizing h with
  | nil => exact .start
  | cons op rest ih => exact (h.books_operate op).trans (ih (h.operate op))

/-! ## What the books say -/

/-- Opening a session leaves everything alone that is registered already. -/
theorem Opens.registered {h t : Host} {request : OpenRequest} {ids : List Uuid} {n : SessionNumber}
    {s : Session} (ho : Opens h request ids n s t)
    (silent : h.workspace.registry.notifier? s.id = none) :
    t.workspace.registry.get? s.id = some n ∧ ∀ id, id ≠ s.id →
      t.workspace.registry.get? id = h.workspace.registry.get? id ∧
        t.workspace.registry.notifier? id = h.workspace.registry.notifier? id := by
  have hfree : (h.workspace.registry.afterNames ids).contains s.id = false := ho.free
  rw [ho.registry]
  refine ⟨by rw [get?_insert hfree, if_pos rfl], fun id hne => ⟨?_, ?_⟩⟩
  · rw [get?_insert hfree, if_neg hne]
    rfl
  · rw [notifier?_insert hfree silent, if_neg hne]
    rfl

/-- What it means that a host is in step with its books: with the insertions and removals that its
clients have been told of, and the project names that have been handed out. -/
structure Bookkept (h : Host) (records : List Record) (names : List String) : Prop where
  /-- The session under an identifier is the one that was inserted last and not removed since. -/
  sessions : ∀ id, h.workspace.registry.get? id = (standing records id).map (·.1)
  /-- A callback is found exactly for the registered sessions that were inserted with one, and it
  is that one. -/
  notifiers : ∀ id, h.workspace.registry.notifier? id = (standing records id).bind (·.2)
  /-- As many sessions are registered as have been inserted and not removed. -/
  size : h.workspace.registry.size + records.countP (!·.isInsertion)
    = records.countP (·.isInsertion)
  /-- A session is removed at most once for each time that it is registered. -/
  balance : ∀ id, records.countP (·.removesAt id) + (h.workspace.registry.contains id).toNat
    = records.countP (·.insertsAt id)
  /-- No project name comes twice. -/
  names : names.length < UInt64.size → names.Nodup
  /-- Closing says whether a session was registered, and afterwards none is. -/
  close : ∀ id, (h.close id).1 = h.workspace.registry.contains id ∧
    (h.close id).2.workspace.registry.contains id = false
  /-- A direct insertion succeeds exactly under a free identifier. Otherwise the registry stays as
  it is. -/
  insert : ∀ id n callback,
    (h.workspace.registry.insert id n callback).1 = !h.workspace.registry.contains id ∧
    (h.workspace.registry.contains id = true →
      (h.workspace.registry.insert id n callback).2 = h.workspace.registry)
  /-- If a candidate is free, a session is opened under it, and everything that is registered
  already stays. -/
  opens : ∀ w request ids, (∃ id ∈ ids, h.workspace.registry.contains id = false) →
    ∃ n s, (h.open? w request ids).1 = some n ∧
      Opens h request ids n s (h.open? w request ids).2 ∧
      (h.open? w request ids).2.workspace.registry.get? s.id = some n ∧
      ∀ id, id ≠ s.id →
        (h.open? w request ids).2.workspace.registry.get? id = h.workspace.registry.get? id ∧
        (h.open? w request ids).2.workspace.registry.notifier? id
          = h.workspace.registry.notifier? id

/-- **The registry is in step with its books.** Let sessions be opened and closed, and inserted and
removed directly, in any order and under any identifiers. Then the tables of sessions and of
callbacks hold what the answers to the clients say, no project name comes twice, and every
operation will go on so. -/
theorem bookkept_operateAll (w : World) (config : Config) (overrides : List (String × String))
    (ops : List Operation) :
    ((new w config overrides).operateAll ops).Bookkept ((new w config overrides).recordsOf ops)
      ((new w config overrides).namesOf ops) := by
  have hbooks := (new w config overrides).books_operateAll ops
  have hempty : (new w config overrides).workspace.registry = {} := by simp [new]
  rw [hempty] at hbooks
  generalize (new w config overrides).recordsOf ops = records at *
  generalize (new w config overrides).namesOf ops = names at *
  generalize (new w config overrides).operateAll ops = h at *
  refine ⟨fun id => (hbooks.tracks id).1, fun id => (hbooks.tracks id).2, hbooks.size_add_removals,
    hbooks.balance, hbooks.nodup_names, fun id => ⟨h.close_eq_contains id, ?_⟩,
    fun id n callback => ⟨?_, fun taken => by rw [insert_of_taken taken]⟩, ?_⟩
  · rw [registry_close, contains_remove, if_pos rfl]
  · cases hid : h.workspace.registry.contains id <;> simp [SessionRegistry.insert, hid]
  · rintro w' request ids ⟨id, hid, hfree⟩
    rcases opens_open? w' h request ids with ⟨htaken, -⟩ | ⟨n, s, hsome, hopens⟩
    · exact absurd (htaken id hid) (by simp [hfree])
    · -- no callback is left over from an earlier session with the identifier
      have hsilent := hbooks.notifier?_of_free hopens.free
      exact ⟨n, s, hsome, hopens, hopens.registered hsilent⟩

/-- A session is opened with a callback. Another one is opened without one, after a candidate has
turned out to be taken, and the first one is inserted once more. Then it is closed, twice. -/
def crowded : List Operation :=
  [.openSession default { wantsDiagnostics := true } [.nil],
    .openSession default {} [.nil, secondId], .insert 0 none, .close .nil, .close .nil]

/-- Three names have been handed out, and the second session is left. -/
theorem crowded_bookkept :
    ((new default default).operateAll crowded).Bookkept
      [.inserted .nil 0 (some 0), .inserted secondId 1 none, .removed .nil]
      ["Script1", "Script2", "Script3"] := by
  have h := bookkept_operateAll default default [] crowded
  exact h

end ScriptSessions.Host
