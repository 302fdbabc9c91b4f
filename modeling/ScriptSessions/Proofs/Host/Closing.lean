import ScriptSessions.Proofs.Host.Effects
import ScriptSessions.Proofs.Lists

set_option autoImplicit false

/-! # A closed session is frozen

Four things know whether a session is closed: its token, its permission to deliver diagnostics,
the registry of sessions and the registry of callbacks. Closing changes them all in one step,
and from then on they stay as they are (`Workspace.Shut`): what would change the session needs
an open one, and what would call back needs a registered callback. Registering needs an open
session again, so a client that has got hold of a closed session cannot bring it back.

That nothing is found any more under the *identifier* of a closed session is true as long as no
later session is opened under the same identifier. The generator of identifiers is relied on not
to repeat itself; this is a hypothesis of the last part of `frozen_of_closed`, and of nothing
else.
-/

namespace ScriptSessions

namespace Workspace

variable {offered : List Uuid} {calm : Bool} {ws ws' : Workspace}

/-! ## The invariant of a workspace -/

/-- What a table holds under an identifier is the number of a session with this identifier. -/
def Owned (ws : Workspace) (table : List (Uuid × SessionNumber)) : Prop :=
  ∀ id n, (id, n) ∈ table → ∃ s, ws.session? n = some s ∧ s.id = id

/-- No pass of any session is just leaving, and the registry is that of the sessions. -/
structure Kept (ws : Workspace) : Prop where
  between : ∀ s ∈ ws.sessions, s.BetweenTurns
  sessions : ws.Owned ws.registry.sessions
  notifiers : ws.Owned ws.registry.notifiers

theorem kept_of_empty (sessions : ws.sessions = []) (registry : ws.registry = {}) : ws.Kept := by
  constructor
  · intro s hs
    rw [sessions] at hs
    cases hs
  · intro id n hmem
    rw [registry] at hmem
    cases hmem
  · intro id n hmem
    rw [registry] at hmem
    cases hmem

/-- Whoever has an identifier keeps it. -/
theorem exists_id_of_effect (he : ws.Effect offered calm ws') {id : Uuid} {n : SessionNumber}
    (h : ∃ s, ws.session? n = some s ∧ s.id = id) : ∃ t, ws'.session? n = some t ∧ t.id = id := by
  obtain ⟨s, at_n, rfl⟩ := h
  obtain ⟨t, at_n', hturns⟩ := he.session? at_n
  exact ⟨t, at_n', hturns.id⟩

theorem Kept.effect (h : ws.Kept) (he : ws.Effect offered calm ws') : ws'.Kept := by
  constructor
  · exact he.between h.between
  · intro id n hmem
    apply exists_id_of_effect he
    rcases he.mem_sessions hmem with hold | ⟨-, s, at_n, -, hid⟩
    · exact h.sessions id n hold
    · exact ⟨s, at_n, hid⟩
  · intro id n hmem
    apply exists_id_of_effect he
    rcases he.mem_notifiers hmem with hold | ⟨s, at_n, -, hid⟩
    · exact h.notifiers id n hold
    · exact ⟨s, at_n, hid⟩

theorem Kept.effects (h : ws.Kept) (he : ws.Effects offered calm ws') : ws'.Kept := by
  induction he with
  | refl => exact h
  | tail _ hlast ih => exact ih.effect hlast

/-! ## Closed sessions -/

/-- The session with number `n`, which was closed as `s` when callbacks had been told `calls`, is
shut: it is frozen, nothing is registered with its number, and its callbacks have been told
nothing more. -/
structure Shut (n : SessionNumber) (s : Session) (calls : List Call) (ws : Workspace) : Prop where
  frozen : ∃ t, ws.session? n = some t ∧ s.Frozen t
  sessions : ∀ id, (id, n) ∉ ws.registry.sessions
  notifiers : ∀ id, (id, n) ∉ ws.registry.notifiers
  silent : ∃ new, ws.calls = calls ++ new ∧ ∀ call ∈ new, call.session ≠ n

/-- A session that is shut is not open. -/
theorem Shut.ne_of_open {n m : SessionNumber} {s t : Session} {calls : List Call}
    (h : ws.Shut n s calls) (at_m : ws.session? m = some t) (isOpen : t.closed = false) :
    m ≠ n := by
  rintro rfl
  obtain ⟨u, hu, hfrozen⟩ := h.frozen
  rw [at_m] at hu
  cases hu
  rw [hfrozen.closed] at isOpen
  cases isOpen

theorem Shut.effect {n : SessionNumber} {s : Session} {calls : List Call}
    (h : ws.Shut n s calls) (he : ws.Effect offered calm ws') : ws'.Shut n s calls := by
  constructor
  · obtain ⟨t, at_n, hfrozen⟩ := h.frozen
    obtain ⟨u, at_n', hturns⟩ := he.session? at_n
    exact ⟨u, at_n', hfrozen.trans (hturns.frozen hfrozen.closed)⟩
  · intro id hmem
    rcases he.mem_sessions hmem with hold | ⟨-, t, at_n, isOpen, -⟩
    · exact h.sessions id hold
    · exact h.ne_of_open at_n isOpen rfl
  · intro id hmem
    rcases he.mem_notifiers hmem with hold | ⟨t, at_n, isOpen, -⟩
    · exact h.notifiers id hold
    · exact h.ne_of_open at_n isOpen rfl
  · obtain ⟨new, hnew, hsilent⟩ := h.silent
    rcases he.calls with hsame | ⟨call, hcall, hreason⟩
    · exact ⟨new, hsame.trans hnew, hsilent⟩
    · refine ⟨new ++ [call], by rw [hcall, hnew, List.append_assoc], ?_⟩
      intro c hc
      rcases List.mem_append.mp hc with hold | hlast
      · exact hsilent c hold
      · rw [List.mem_singleton.mp hlast]
        -- whoever is told something is open, or registered for it
        rcases hreason with ⟨t, at_m, isOpen⟩ | ⟨id, registered⟩
        · exact h.ne_of_open at_m isOpen
        · intro hm
          rw [hm] at registered
          exact h.notifiers id registered

theorem Shut.effects {n : SessionNumber} {s : Session} {calls : List Call}
    (h : ws.Shut n s calls) (he : ws.Effects offered calm ws') : ws'.Shut n s calls := by
  induction he with
  | refl => exact h
  | tail _ hlast ih => exact ih.effect hlast

/-- Whether nothing is registered under an identifier. -/
def Absent (id : Uuid) (ws : Workspace) : Prop := ∀ n, (id, n) ∉ ws.registry.sessions

theorem Absent.effect {id : Uuid} (h : ws.Absent id) (hid : id ∉ offered)
    (he : ws.Effect offered calm ws') : ws'.Absent id := by
  intro n hmem
  rcases he.mem_sessions hmem with hold | ⟨hoffered, -⟩
  · exact h n hold
  · exact hid hoffered

theorem Absent.effects {id : Uuid} (h : ws.Absent id) (hid : id ∉ offered)
    (he : ws.Effects offered calm ws') : ws'.Absent id := by
  induction he with
  | refl => exact h
  | tail _ hlast ih => exact ih.effect hid hlast

theorem Absent.open?_eq_none {id : Uuid} (h : ws.Absent id) : ws.open? id = none := by
  have hget : ws.registry.get? id = none := by
    refine List.lookup_eq_none_iff.mpr fun p hp => ?_
    have hne : p.1 ≠ id := by
      rintro rfl
      exact h p.2 hp
    simpa using hne.symm
  simp [open?, hget]

/-- Removing an identifier leaves what is open under the others. -/
theorem open?_unregister_of_ne {id other : Uuid} {n : SessionNumber} {s : Session}
    (hne : id ≠ other) (hget : ws.registry.get? id = some n) (at_n : ws.session? n = some s) :
    (ws.unregister other).2.open? id = some (n, s) := by
  have hget' : (ws.unregister other).2.registry.get? id = some n :=
    (lookup_filter_ne hne ws.registry.sessions).trans hget
  have at_n' : (ws.unregister other).2.session? n = some s := at_n
  simp [open?, hget', at_n']

/-- An open session is registered under its own identifier only. -/
theorem Kept.id_of_open? (h : ws.Kept) {id : Uuid} {n : SessionNumber} {s : Session}
    (isOpen : ws.open? id = some (n, s)) : s.id = id := by
  obtain ⟨hget, at_n⟩ := open?_eq_some isOpen
  obtain ⟨t, ht, hid⟩ := h.sessions id n (mem_of_lookup hget)
  rw [at_n] at ht
  cases ht
  exact hid

/-- Closing shuts a session. -/
theorem Kept.shut (h : ws.Kept) {id : Uuid} {n : SessionNumber} {s : Session}
    (isOpen : ws.open? id = some (n, s)) :
    ((ws.setSession n s.close).unregister id).2.Shut n s.close ws.calls := by
  obtain ⟨-, at_n⟩ := open?_eq_some isOpen
  have hid := h.id_of_open? isOpen
  have hown (table : List (Uuid × SessionNumber)) (howned : ws.Owned table) (id' : Uuid) :
      (id', n) ∉ table.filter (·.1 != id) := by
    intro hmem
    obtain ⟨htable, hne⟩ := List.mem_filter.mp hmem
    obtain ⟨t, ht, rfl⟩ := howned id' n htable
    rw [at_n] at ht
    cases ht
    simp [hid] at hne
  exact ⟨⟨s.close, session?_setSession_self at_n s.close, .refl rfl⟩, hown _ h.sessions,
    hown _ h.notifiers, [], by simp [unregister, setSession], nofun⟩

theorem absent_unregister (id : Uuid) : (ws.unregister id).2.Absent id := by
  intro n hmem
  simpa using (List.mem_filter.mp hmem).2

end Workspace

namespace Host

/-! ## Closing by the host -/

/-- A host that may come about: a new one after some run. -/
def Reachable (h : Host) : Prop :=
  ∃ w config overrides actions, h = (new w config overrides).run actions

/-- What new hosts have and every action keeps is so for every reachable host. -/
theorem Reachable.induction {P : Host → Prop}
    (new : ∀ w config overrides, P (new w config overrides))
    (keep : ∀ h a, P h → P (h.perform a)) {h : Host} (reachable : h.Reachable) : P h := by
  obtain ⟨w, config, overrides, actions, rfl⟩ := reachable
  have hnew := new w config overrides
  generalize Host.new w config overrides = h at hnew
  induction actions generalizing h with
  | nil => exact hnew
  | cons a rest ih => exact ih (h.perform a) (keep h a hnew)

theorem kept_perform {h : Host} (kept : h.workspace.Kept) (a : Action) :
    (h.perform a).workspace.Kept :=
  kept.effects (h.effects_perform a)

theorem Reachable.kept {h : Host} (reachable : h.Reachable) : h.workspace.Kept :=
  reachable.induction (P := fun h => h.workspace.Kept)
    (fun w config overrides => Workspace.kept_of_empty (by simp [new]) (by simp [new]))
    fun _ a kept => kept_perform kept a

theorem close_eq {h : Host} {id : Uuid} {n : SessionNumber} {s : Session}
    (isOpen : h.workspace.open? id = some (n, s)) :
    (h.close id).2.workspace = ((h.workspace.setSession n s.close).unregister id).2 := by
  simp only [close, isOpen]

/-- Closing another session leaves an open session alone. -/
theorem open?_close_of_ne {h : Host} (kept : h.workspace.Kept) {id other : Uuid}
    {n : SessionNumber} {s : Session} (isOpen : h.workspace.open? id = some (n, s))
    (hne : id ≠ other) : (h.close other).2.workspace.open? id = some (n, s) := by
  obtain ⟨hget, at_n⟩ := Workspace.open?_eq_some isOpen
  simp only [close]
  cases hother : h.workspace.open? other with
  | none => exact Workspace.open?_unregister_of_ne hne hget at_n
  | some found =>
      obtain ⟨m, t⟩ := found
      have hm : m ≠ n := by
        rintro rfl
        have at_m := (Workspace.open?_eq_some hother).2
        rw [at_n] at at_m
        cases at_m
        exact hne ((kept.id_of_open? isOpen).symm.trans (kept.id_of_open? hother))
      exact Workspace.open?_unregister_of_ne hne hget
        ((Workspace.session?_setSession_ne hm _).trans at_n)

/-- Closing shuts the session that is open under an identifier, and nothing is registered under
the identifier any more. -/
theorem shut_close {h : Host} (kept : h.workspace.Kept) {id : Uuid} {n : SessionNumber}
    {s : Session} (isOpen : h.workspace.open? id = some (n, s)) :
    (h.close id).2.workspace.Shut n s.close h.workspace.calls ∧
      (h.close id).2.workspace.Absent id := by
  rw [close_eq isOpen]
  exact ⟨kept.shut isOpen, Workspace.absent_unregister id⟩

theorem calls_close (h : Host) (id : Uuid) :
    (h.close id).2.workspace.calls = h.workspace.calls := by
  simp only [close]
  split <;> rfl

theorem registry_close (h : Host) (id : Uuid) :
    (h.close id).2.workspace.registry = (h.workspace.registry.remove id).2 := by
  simp only [close]
  split <;> rfl

/-- Closing several sessions, one after another, shuts each of them. -/
theorem shut_closeAll {id : Uuid} {n : SessionNumber} {s : Session} (ids : List Uuid)
    (hid : id ∈ ids) {h : Host} (kept : h.workspace.Kept)
    (isOpen : h.workspace.open? id = some (n, s)) :
    (ids.foldl (fun h id => (h.close id).2) h).workspace.Shut n s.close h.workspace.calls ∧
      (ids.foldl (fun h id => (h.close id).2) h).workspace.Absent id := by
  induction ids generalizing h with
  | nil => cases hid
  | cons other rest ih =>
      by_cases hother : id = other
      · -- the rest of the sessions are closed after it
        subst hother
        obtain ⟨hshut, habsent⟩ := shut_close kept isOpen
        have heffects : (h.close id).2.workspace.Effects [] true
            (rest.foldl (fun h id => (h.close id).2) (h.close id).2).workspace :=
          effects_closeAll rest (h.close id).2
        exact ⟨hshut.effects heffects, habsent.effects List.not_mem_nil heffects⟩
      · have hrest : id ∈ rest := by simpa [hother] using hid
        have hlater := ih hrest (kept_perform kept (.close other))
          (open?_close_of_ne kept isOpen hother)
        rw [show (h.perform (.close other)).workspace.calls = h.workspace.calls from
          calls_close h other] at hlater
        exact hlater

/-- Shutting down shuts every session. -/
theorem shut_shutdown {h : Host} (kept : h.workspace.Kept) {id : Uuid} {n : SessionNumber}
    {s : Session} (isOpen : h.workspace.open? id = some (n, s)) :
    h.shutdown.workspace.Shut n s.close h.workspace.calls ∧ h.shutdown.workspace.Absent id := by
  obtain ⟨hget, -⟩ := Workspace.open?_eq_some isOpen
  have hid : id ∈ h.workspace.registry.ids := List.mem_map.mpr ⟨(id, n), mem_of_lookup hget, rfl⟩
  exact shut_closeAll h.workspace.registry.ids hid kept isOpen

end Host

/-! ## What clients see of a closed session -/

/-- The session `t` is what has become of the session `s` since it was closed. -/
structure Session.ClosedAs (s t : Session) : Prop where
  snapshot : t.snapshot = s.snapshot
  findings : t.findings = s.findings
  update : ∀ next, t.update next = .error (.closed t.id)
  request : t.request = (.closed, t)
  /-- A pass that was under way when the session was closed, or was asked for later, ends
  without a report, or with one that says that nothing was stored. -/
  passes : ∀ (i : Nat) (q : Pass) (report : Option Report), t.passes[i]? = some q →
    q.stage = .ended report → (∀ p : Pass, s.passes[i]? = some p → p.isEnded = false) →
    report = none ∨ ∃ r, report = some r ∧ r.committed = false

theorem Session.closedAs_of_frozen {s t : Session} (between : s.BetweenTurns)
    (h : s.close.Frozen t) : s.ClosedAs t := by
  refine ⟨h.snapshot, h.findings, fun next => by simp [update, h.closed],
    by simp [request, h.closed], fun i q report hq hended hp => ?_⟩
  have hbarren := h.passes i q hq fun p hp' r hr => by
    -- the pass was neither leaving nor over when the session was closed
    have hleaving := between p (List.mem_of_getElem? hp')
    have hunended := hp p hp'
    obtain ⟨b, stage⟩ := p
    cases stage with
    | leaving => cases hleaving
    | ended => cases hunended
    | queued | entered | resolving => cases hr
  cases report with
  | none => exact .inl rfl
  | some r => exact .inr ⟨r, rfl, hbarren r (by simp [Pass.report?, hended])⟩

namespace Host

/-- The session with number `n`, which was `s` in the host `h` when it was closed, is frozen in
the host `t`. -/
structure Frozen (n : SessionNumber) (s : Session) (h t : Host) : Prop where
  session : ∃ u, t.workspace.session? n = some u ∧ s.ClosedAs u
  /-- No callback of the session has been told anything since. -/
  silent : ∃ new, t.workspace.calls = h.workspace.calls ++ new ∧ ∀ call ∈ new, call.session ≠ n
  /-- The session is not found under any identifier. -/
  lost : ∀ id m u, t.workspace.open? id = some (m, u) → m ≠ n

/-- Nothing is open under an identifier, as far as clients of the host can see. -/
structure Gone (id : Uuid) (t : Host) : Prop where
  get : t.get? id = none
  update : ∀ next, t.update id next = .ok (.sessionNotFound, t)
  reprocess : ∀ w, t.reprocess w id = (none, t)
  notify : ∀ event, event.sessionId = id → t.notify event = (.dropped, t)
  directives : t.referenceDirectives id = []
  diagnostics : t.sessionDiagnostics id = []
  reference : ∀ name, t.hasReference id name = false

theorem gone_of_absent {id : Uuid} {t : Host} (h : t.workspace.Absent id) : Gone id t := by
  have hnone := h.open?_eq_none
  have hget : t.get? id = none := by simp [get?, hnone]
  refine ⟨hget, fun next => by simp [update, hnone], fun w => by simp [reprocess, hnone],
    fun event hevent => ?_, by simp [referenceDirectives, hget],
    by simp [sessionDiagnostics, hget], fun name => by simp [hasReference, hget]⟩
  simp [notify, Workspace.notify, hevent, hnone]

theorem shut_run {id : Uuid} {n : SessionNumber} {s : Session} {calls : List Call} {h : Host}
    (hshut : h.workspace.Shut n s calls) (after : List Action) :
    (h.run after).workspace.Shut n s calls ∧
      (h.workspace.Absent id → (∀ a ∈ after, id ∉ a.offered) →
        (h.run after).workspace.Absent id) := by
  induction after generalizing h with
  | nil => exact ⟨hshut, fun habsent _ => habsent⟩
  | cons a rest ih =>
      obtain ⟨hrest, habsent⟩ := ih (hshut.effects (h.effects_perform a))
      refine ⟨hrest, fun hid hfresh => habsent ?_ fun b hb => hfresh b (List.mem_cons_of_mem _ hb)⟩
      exact hid.effects (hfresh a List.mem_cons_self) (h.effects_perform a)

/-- **A closed session is frozen.** Let a session be closed, or the host shut down, in any host
that may come about, whatever the passes of the session are doing, and let anything happen after
it. The session, its callbacks and its passes stay as `Frozen` says. If no later session is
opened under the identifier, nothing is found under it. -/
theorem frozen_of_closed (h : Host) (reachable : h.Reachable) (id : Uuid) (n : SessionNumber)
    (s : Session) (isOpen : h.workspace.open? id = some (n, s)) (closing : Action)
    (closes : closing = .close id ∨ closing = .shutdown) (after : List Action) :
    Frozen n s h ((h.perform closing).run after) ∧
      ((∀ a ∈ after, id ∉ a.offered) → Gone id ((h.perform closing).run after)) := by
  have kept := reachable.kept
  have hclosed : (h.perform closing).workspace.Shut n s.close h.workspace.calls ∧
      (h.perform closing).workspace.Absent id := by
    rcases closes with rfl | rfl
    · exact shut_close kept isOpen
    · exact shut_shutdown kept isOpen
  obtain ⟨hshut, habsent⟩ := shut_run hclosed.1 after
  obtain ⟨t, ht, hfrozen⟩ := hshut.frozen
  have hbetween := kept.between s (List.mem_of_getElem? (Workspace.open?_eq_some isOpen).2)
  refine ⟨⟨⟨t, ht, Session.closedAs_of_frozen hbetween hfrozen⟩, hshut.silent, ?_⟩,
    fun hfresh => gone_of_absent (habsent hclosed.2 hfresh)⟩
  rintro id' m u hopen rfl
  exact hshut.sessions id' (mem_of_lookup (Workspace.open?_eq_some hopen).1)

/-- A host with one session, whose scheduled pass has read the text and is about to store what it
has found. -/
def busyHost : Host := (new default default).run
  [.openSession default { text := "1 + 1", wantsDiagnostics := true, wantsText := true } [.nil],
    .advance 0 0 default [], .advance 0 0 default []]

/-- The session of `busyHost`. -/
def busySession : Session := (busyHost.workspace.session? 0).getD default

/-- A client that has got hold of the session submits a text, the compiler sends its news, and
the pass goes on. -/
def lateActions : List Action :=
  [.updateSession 0 (busySession.snapshot.withText "2 + 2"), .notify ⟨.nil, 0, []⟩,
    .advance 0 0 default []]

/-- If the session of `busyHost` is closed before all this, it is frozen, and its pass ends with
a report that says that nothing was stored. -/
theorem busyHost_frozen :
    Frozen 0 busySession busyHost ((busyHost.perform (.close .nil)).run lateActions) ∧
    Gone .nil ((busyHost.perform (.close .nil)).run lateActions) ∧
    (((busyHost.perform (.close .nil)).run lateActions).workspace.session? 0).map
      (fun s => s.passes.map Pass.report?) = some [some ⟨0, 0, 0, 0, false⟩] := by
  have h := frozen_of_closed busyHost ⟨_, _, _, _, rfl⟩ .nil 0 busySession (by rfl) (.close .nil)
    (.inl rfl) lateActions
  exact ⟨h.1, h.2 (by decide), by rfl⟩

end Host

end ScriptSessions
