import ScriptSessions.Proofs.Host.Effects
import ScriptSessions.Proofs.Session.Registry

set_option autoImplicit false

/-! # Opening a session

A host goes through the candidate identifiers until it meets one that is free. Every candidate
costs a project name, also one that is taken. `Host.Opens` says all that opening has done when it
comes back with a session: the session is new, it has the last of the names, it is registered under
a candidate that was free, and everything else is as before.
-/

namespace ScriptSessions

namespace Workspace

/-! ## Registering and asking for a pass -/

variable {ws : Workspace} {n : SessionNumber} {s : Session}

theorem registry_register (at_n : ws.session? n = some s) (withCallback : Bool) :
    (ws.register n withCallback).2.registry
      = (ws.registry.insert s.id n (if withCallback then some n else none)).2 := by
  simp only [register, at_n]

/-- Asking for a pass concerns the session alone. -/
theorem sessions_request (ws : Workspace) (n : SessionNumber) (s : Session) :
    (ws.request n s).2.sessions = ws.sessions.set n s.request.2 := by
  simp only [request]
  split <;> rfl

theorem registry_request (ws : Workspace) (n : SessionNumber) (s : Session) :
    (ws.request n s).2.registry = ws.registry := by
  simp only [request]
  split <;> rfl

theorem calls_request (ws : Workspace) (n : SessionNumber) (s : Session) :
    (ws.request n s).2.calls = ws.calls := by
  simp only [request]
  split <;> rfl

end Workspace

namespace SessionRegistry

/-! ## The names of the candidates -/

/-- The project names that are handed out until one of the candidates is free. -/
def namesTried (r : SessionRegistry) : List Uuid → List String
  | [] => []
  | id :: others =>
    r.nextProjectName.1 :: if r.contains id then namesTried r.nextProjectName.2 others else []

/-- The registry after these names have been handed out. -/
def afterNames (r : SessionRegistry) (ids : List Uuid) : SessionRegistry :=
  { r with namesGiven := r.namesGiven + UInt64.ofNat (r.namesTried ids).length }

theorem afterNames_of_taken {r : SessionRegistry} {id : Uuid} (taken : r.contains id = true)
    (others : List Uuid) : r.afterNames (id :: others) = r.nextProjectName.2.afterNames others := by
  have hgiven (k : Nat) :
      r.namesGiven + UInt64.ofNat (k + 1) = r.namesGiven + 1 + UInt64.ofNat k := by
    rw [Nat.add_comm, UInt64.ofNat_add, ← UInt64.add_assoc]
    rfl
  simp only [afterNames, namesTried, if_pos taken, List.length_cons, hgiven]
  rfl

theorem afterNames_of_free {r : SessionRegistry} {id : Uuid} (free : r.contains id = false)
    (others : List Uuid) : r.afterNames (id :: others) = r.nextProjectName.2 := by
  simp only [afterNames, namesTried, free, Bool.false_eq_true, if_false]
  rfl

/-- The names are written in the books. -/
theorem books_afterNames (r : SessionRegistry) (ids : List Uuid) :
    Books r [] (r.namesTried ids) (r.afterNames ids) := by
  induction ids generalizing r with
  | nil =>
      have hsame : r.afterNames [] = r := by simp [afterNames, namesTried]
      rw [hsame]
      exact .start
  | cons id others ih =>
      cases hid : r.contains id with
      | true =>
          rw [afterNames_of_taken hid, namesTried, if_pos hid]
          exact Books.start.name.trans (ih r.nextProjectName.2)
      | false =>
          rw [afterNames_of_free hid, namesTried, if_neg (by simp [hid])]
          exact Books.start.name

end SessionRegistry

/-- A request leaves everything about a session but its gate and its passes. -/
theorem Session.request_frame (s : Session) :
    ∃ gate passes, s.request.2 = { s with gate := gate, passes := passes } := by
  unfold Session.request
  split
  · exact ⟨s.gate, s.passes, rfl⟩
  · split
    · exact ⟨_, s.passes, rfl⟩
    · exact ⟨_, _, rfl⟩

namespace Host

/-! ## Opening -/

/-- A host with another registry. -/
def withRegistry (h : Host) (registry : SessionRegistry) : Host :=
  { h with workspace := { h.workspace with registry } }

/-- What the host `t` is after a session has been opened in the host `h`: there is a new session,
with the given number, and it is registered. -/
structure Opens (h : Host) (request : OpenRequest) (ids : List Uuid) (n : SessionNumber)
    (s : Session) (t : Host) : Prop where
  /-- The identifier of the session is a candidate, and was free. -/
  mem : s.id ∈ ids
  free : h.workspace.registry.contains s.id = false
  /-- The session is the last of all, and the others are as before. -/
  number : n = h.workspace.sessions.length
  sessions : t.workspace.sessions = h.workspace.sessions ++ [s]
  /-- It is open, and has not been worked on. -/
  isOpen : s.closed = false
  delivering : s.delivering = true
  findings : s.findings = {}
  /-- It has the last of the names that were handed out. -/
  name : (h.workspace.registry.namesTried ids).getLast? = some s.project.name
  /-- It is registered with its callback, if it has one. -/
  registry : t.workspace.registry = ((h.workspace.registry.afterNames ids).insert s.id n
    (if request.wantsDiagnostics then some n else none)).2
  /-- No callback is told anything, and the mailbox is left alone. -/
  calls : t.workspace.calls = h.workspace.calls
  mailbox : t.mailbox = h.mailbox
  listening : t.listening = h.listening

theorem Opens.session? {h t : Host} {request : OpenRequest} {ids : List Uuid} {n : SessionNumber}
    {s : Session} (ho : Opens h request ids n s t) : t.workspace.session? n = some s := by
  rw [Workspace.session?, ho.sessions, ho.number]
  simp

/-- A candidate that is taken costs a name. -/
theorem open?_of_taken (w : World) (h : Host) (request : OpenRequest) {id : Uuid}
    (taken : h.workspace.registry.contains id = true) (others : List Uuid) :
    h.open? w request (id :: others)
      = { h with workspace := h.workspace.nextProjectName.2 }.open? w request others := by
  have htaken : h.workspace.nextProjectName.2.registry.contains id = true := taken
  simp only [open?, htaken, if_true]

/-- The session that has been opened may be asked for a pass at once. -/
theorem Opens.request {h t : Host} {request : OpenRequest} {ids : List Uuid} {n : SessionNumber}
    {s : Session} (ho : Opens h request ids n s t) :
    Opens h request ids n s.request.2 { t with workspace := (t.workspace.request n s).2 } := by
  have hsessions := Workspace.sessions_request t.workspace n s
  have hregistry := Workspace.registry_request t.workspace n s
  obtain ⟨gate, passes, hframe⟩ := s.request_frame
  rw [hframe] at hsessions ⊢
  exact { ho with
    sessions := by
      rw [hsessions, ho.sessions, ho.number]
      simp
    registry := hregistry ▸ ho.registry
    calls := (Workspace.calls_request ..).trans ho.calls }

/-- A candidate that is free is given to a new session. -/
theorem opens_of_free (w : World) (h : Host) (request : OpenRequest) {id : Uuid}
    (free : h.workspace.registry.contains id = false) (others : List Uuid) :
    ∃ n s, (h.open? w request (id :: others)).1 = some n ∧
      Opens h request (id :: others) n s (h.open? w request (id :: others)).2 := by
  have hfree : h.workspace.nextProjectName.2.registry.contains id = false := free
  have hnames : h.workspace.registry.namesTried (id :: others)
      = [h.workspace.nextProjectName.1] := by
    simp only [SessionRegistry.namesTried, free, Bool.false_eq_true, if_false]
    rfl
  simp only [open?, hfree, Bool.false_eq_true, if_false]
  generalize hs : Session.create w.directory id h.workspace.nextProjectName.1 request
    (request.options.getD h.config.compilationOptions) h.overrides = s
  have hnew : s.id = id ∧ s.closed = false ∧ s.delivering = true ∧ s.findings = {} ∧
      s.project.name = h.workspace.nextProjectName.1 := by
    rw [← hs]
    exact ⟨rfl, rfl, rfl, rfl, rfl⟩
  obtain ⟨hid, hopen, hdelivering, hfindings, hname⟩ := hnew
  have at_n : (h.workspace.nextProjectName.2.addSession s).2.session? h.workspace.sessions.length
      = some s := by
    simp [Workspace.addSession, Workspace.session?, Workspace.nextProjectName]
  have registered : Opens h request (id :: others) h.workspace.sessions.length s
      { h with workspace := ((h.workspace.nextProjectName.2.addSession s).2.register
          h.workspace.sessions.length request.wantsDiagnostics).2 } :=
    { mem := hid ▸ List.mem_cons_self, free := hid ▸ free, number := rfl,
      sessions := Workspace.sessions_register _ _, isOpen := hopen, delivering := hdelivering,
      findings := hfindings, name := by rw [hnames, hname]; rfl,
      registry := by
        rw [SessionRegistry.afterNames_of_free free]
        exact Workspace.registry_register at_n _
      calls := Workspace.calls_register _ _, mailbox := rfl, listening := rfl }
  split
  · exact ⟨_, s.request.2, rfl, registered.request⟩
  · exact ⟨_, s, rfl, registered⟩

/-- Opening comes back with a session exactly if a candidate is free. -/
theorem opens_open? (w : World) (h : Host) (request : OpenRequest) (ids : List Uuid) :
    ((∀ id ∈ ids, h.workspace.registry.contains id = true) ∧ h.open? w request ids
        = (none, h.withRegistry (h.workspace.registry.afterNames ids))) ∨
      ∃ n s, (h.open? w request ids).1 = some n ∧
        Opens h request ids n s (h.open? w request ids).2 := by
  induction ids generalizing h with
  | nil =>
      refine .inl ⟨nofun, ?_⟩
      simp [open?, withRegistry, SessionRegistry.afterNames, SessionRegistry.namesTried]
  | cons id others ih =>
      cases hid : h.workspace.registry.contains id with
      | false => exact .inr (opens_of_free w h request hid others)
      | true =>
          have hafter := SessionRegistry.afterNames_of_taken hid others
          rw [open?_of_taken w h request hid]
          rcases ih { h with workspace := h.workspace.nextProjectName.2 } with
            ⟨htaken, hnone⟩ | ⟨n, s, hsome, hopens⟩
          · rw [hafter]
            refine .inl ⟨fun other hother => ?_, hnone⟩
            rcases List.mem_cons.mp hother with rfl | hmem
            · exact hid
            · exact htaken other hmem
          · refine .inr ⟨n, s, hsome,
              { hopens with
                mem := List.mem_cons_of_mem id hopens.mem
                registry := hafter ▸ hopens.registry
                name := ?_ }⟩
            -- the name of the candidate that was taken stands before the others
            have hname : (h.workspace.registry.nextProjectName.2.namesTried others).getLast?
                = some s.project.name := hopens.name
            rw [SessionRegistry.namesTried, if_pos hid, List.getLast?_cons, hname]
            rfl

/-- An identifier other than that whose digits are all zero. -/
def secondId : Uuid := ⟨Text.toHexDigits 32 1, Text.length_toHexDigits 32 1⟩

end Host

end ScriptSessions
