import ScriptSessions.Proofs.Host.Chronicle
import ScriptSessions.Proofs.Host.Opening

set_option autoImplicit false

/-! # News of diagnostics is delivered in order

An event reaches the session that is registered under its identifier, if this session is open
(`Workspace.addressee?`). It then asks the session for a pass, and the callback of the session is
told, if it has one. Any other event is dropped, and the host stays as it is.

What has to be known about a host for this is that an open session still accepts diagnostics, that
every callback stands beside its own session in the registry, and that the flag of a gate is set
exactly as long as a pass waits (`Workspace.Attentive`). All of this is kept by the basic effects.
That the callback which a session was opened with stays beside it is not: an effect might register
the same session again. It is kept by the actions of a host, which register new sessions only
(`Host.Enrolled`).

From here on a callback and the events for its session go in step: `Enrolled.received_perform` is
one action, and `Enrolled.received_run` a whole run. The mailbox comes in only as one of the two
ways in which events get to be handled, and `mailbox_run` says that it keeps their order.
-/

namespace ScriptSessions

/-- The event that a call hands to the callback of the session with number `n`, if it does. -/
def Call.event? (n : SessionNumber) : Call → Option DiagnosticsEvent
  | .textChanged _ _ => none
  | .diagnostics m event => if m = n then some event else none

namespace Session

/-- Whether a session accepts diagnostics as long as it is open. -/
def Attentive (s : Session) : Prop := s.closed = false → s.delivering = true

theorem Attentive.perform {s : Session} (hs : s.Attentive) (a : Action) :
    (s.perform a).Attentive := by
  have h := s.effect_perform a
  generalize s.perform a = t at h
  cases h with
  | idle | update | fold | schedule | requestNow => exact hs
  | cancel | close => exact nofun
  | move _ i p q t at_i h =>
      obtain ⟨gate, findings, rfl⟩ := h.frame
      exact hs

/-- After a request a scheduled pass waits that had not started before. -/
theorem GateKept.exists_waiting {s : Session} (hs : s.GateKept) (isOpen : s.closed = false) :
    ∃ (i : Nat) (p : Pass), s.request.2.passes[i]? = some p ∧ p.isWaiting = true ∧
      ∀ q : Pass, s.passes[i]? = some q → q.isWaiting = true := by
  cases hpending : s.gate.pending with
  | true =>
      -- the request is folded into the pass that has set the flag
      have hwaiting := hs.waiting isOpen
      rw [hpending] at hwaiting
      have hpos : 0 < s.passes.countP Pass.isWaiting := hwaiting ▸ Nat.one_pos
      obtain ⟨p, hmem, hp⟩ := List.countP_pos_iff.mp hpos
      obtain ⟨i, at_i⟩ := List.mem_iff_getElem?.mp hmem
      have hsame : s.request.2.passes = s.passes := by simp [request, isOpen, hpending]
      refine ⟨i, p, hsame ▸ at_i, hp, fun q hq => ?_⟩
      rw [at_i] at hq
      exact Option.some.inj hq ▸ hp
  | false =>
      have hnew : s.request.2.passes = s.passes ++ [⟨true, .queued⟩] := by
        simp [request, isOpen, hpending]
      refine ⟨s.passes.length, ⟨true, .queued⟩, by rw [hnew]; simp, rfl, fun q hq => ?_⟩
      rw [List.getElem?_eq_none (Nat.le_refl _)] at hq
      cases hq

end Session

namespace Workspace

variable {offered : List Uuid} {calm : Bool} {ws ws' : Workspace}

/-! ## What keeps a workspace attentive -/

/-- No event gets lost in a workspace: open sessions accept diagnostics, callbacks stand beside
their sessions, and whoever has been called is there. -/
structure Attentive (ws : Workspace) : Prop where
  kept : ws.Kept
  gates : ws.GatesKept
  sessions : ∀ s ∈ ws.sessions, s.Attentive
  notifiers : ∀ id n, ws.registry.notifier? id = some n → ws.registry.get? id = some n
  calls : ∀ call ∈ ws.calls, ∃ s, ws.session? call.session = some s

theorem attentive_of_empty (sessions : ws.sessions = []) (registry : ws.registry = {})
    (calls : ws.calls = []) : ws.Attentive := by
  refine ⟨kept_of_empty sessions registry, ?_, ?_, ?_, ?_⟩
  · simp [GatesKept, sessions]
  · simp [sessions]
  · rw [registry]
    exact nofun
  · simp [calls]

theorem Attentive.sessions_effect (h : ws.Attentive) (he : ws.Effect offered calm ws') :
    ∀ s ∈ ws'.sessions, s.Attentive :=
  he.forall_sessions (fun _ _ hturn hs => hturn.keeps (fun _ a hs => hs.perform a) hs)
    (fun _ _ _ _ delivering _ => delivering) h.sessions

/-- No callback is left over from an earlier session. -/
theorem Attentive.notifier?_of_free (h : ws.Attentive) {id : Uuid}
    (free : ws.registry.contains id = false) : ws.registry.notifier? id = none := by
  rw [Option.eq_none_iff_forall_ne_some]
  intro n hn
  have hget := SessionRegistry.contains_eq_false_iff.mp free
  rw [h.notifiers id n hn] at hget
  cases hget

/-- A session is registered together with its callback, and removed together with it. -/
theorem Attentive.notifiers_effect (h : ws.Attentive) (he : ws.Effect offered calm ws') :
    ∀ id n, ws'.registry.notifier? id = some n → ws'.registry.get? id = some n := by
  cases he with
  | aside | share | act | advance | tell | deliver | add => exact h.notifiers
  | register m s b at_m =>
      intro id n
      rw [registry_register at_m]
      cases hid : ws.registry.contains s.id with
      | true =>
          rw [SessionRegistry.insert_of_taken hid]
          exact h.notifiers id n
      | false =>
          rw [SessionRegistry.get?_insert hid,
            SessionRegistry.notifier?_insert hid (h.notifier?_of_free hid)]
          split
          · cases b <;> simp
          · exact h.notifiers id n
  | unregister other =>
      intro id n
      simp only [unregister]
      rw [SessionRegistry.get?_remove, SessionRegistry.notifier?_remove]
      split
      · simp
      · exact h.notifiers id n

theorem Attentive.calls_effect (h : ws.Attentive) (he : ws.Effect offered calm ws') :
    ∀ call ∈ ws'.calls, ∃ s, ws'.session? call.session = some s := by
  intro call hcall
  have hbefore : ∃ s, ws.session? call.session = some s := by
    rcases he.calls with hsame | ⟨new, hnew, hreason⟩
    · exact h.calls call (hsame ▸ hcall)
    · rw [hnew] at hcall
      rcases List.mem_append.mp hcall with hold | hlast
      · exact h.calls call hold
      · rw [List.mem_singleton.mp hlast]
        rcases hreason with ⟨s, at_n, -⟩ | ⟨id, registered⟩
        · exact ⟨s, at_n⟩
        · obtain ⟨s, at_n, -⟩ := h.kept.notifiers id new.session registered
          exact ⟨s, at_n⟩
  obtain ⟨s, at_n⟩ := hbefore
  obtain ⟨t, at_n', -⟩ := he.session? at_n
  exact ⟨t, at_n'⟩

theorem Attentive.effect (h : ws.Attentive) (he : ws.Effect offered calm ws') : ws'.Attentive :=
  ⟨h.kept.effect he, h.gates.effect he, h.sessions_effect he, h.notifiers_effect he,
    h.calls_effect he⟩

theorem Attentive.effects (h : ws.Attentive) (he : ws.Effects offered calm ws') :
    ws'.Attentive := by
  induction he with
  | refl => exact h
  | tail _ hlast ih => exact ih.effect hlast

/-- A session that is there stays there, under the same identifier. -/
theorem exists_id_of_effects (he : ws.Effects offered calm ws') {id : Uuid} {n : SessionNumber}
    (there : ∃ s, ws.session? n = some s ∧ s.id = id) :
    ∃ s, ws'.session? n = some s ∧ s.id = id := by
  induction he with
  | refl => exact there
  | tail _ hlast ih => exact exists_id_of_effect hlast ih

/-! ## One event -/

/-- The session that an event reaches, and its number: the one that is registered under the
identifier of the event, if it is open. -/
def addressee? (ws : Workspace) (event : DiagnosticsEvent) : Option (SessionNumber × Session) :=
  (ws.open? event.sessionId).filter fun found => !found.2.closed

/-- Whether an event reaches the session with number `n`. -/
def reaches (ws : Workspace) (n : SessionNumber) (event : DiagnosticsEvent) : Bool :=
  (ws.addressee? event).any (·.1 == n)

/-- What the callback of the session with number `n` has been told of diagnostics, in order. -/
def received (ws : Workspace) (n : SessionNumber) : List DiagnosticsEvent :=
  ws.calls.filterMap (·.event? n)

theorem addressee?_eq_some_iff {event : DiagnosticsEvent} {n : SessionNumber} {s : Session} :
    ws.addressee? event = some (n, s) ↔
      ws.open? event.sessionId = some (n, s) ∧ s.closed = false := by
  simp [addressee?, Option.filter_eq_some_iff]

/-- An event that reaches a session carries the identifier of the session. -/
theorem Attentive.sessionId_of_reaches (h : ws.Attentive) {id : Uuid} {n : SessionNumber}
    (there : ∃ s, ws.session? n = some s ∧ s.id = id) {event : DiagnosticsEvent}
    (reached : ws.reaches n event = true) : event.sessionId = id := by
  obtain ⟨⟨m, t⟩, hfound, hm⟩ := (Option.any_eq_true _ _).mp reached
  obtain rfl : m = n := by simpa using hm
  have hopen := (addressee?_eq_some_iff.mp hfound).1
  obtain ⟨s, at_m, rfl⟩ := there
  obtain rfl := Option.some.inj (at_m.symm.trans (open?_eq_some hopen).2)
  exact (h.kept.id_of_open? hopen).symm

/-- An event that reaches no session is dropped. -/
theorem notify_of_none {event : DiagnosticsEvent} (nobody : ws.addressee? event = none) :
    ws.notify event = (.dropped, ws) := by
  unfold notify
  split
  · rfl
  · next n s hopen =>
      cases hclosed : s.closed with
      | true => simp [Session.acceptsDiagnostics, hclosed]
      | false =>
          rw [addressee?_eq_some_iff.mpr ⟨hopen, hclosed⟩] at nobody
          cases nobody

/-- An event that reaches a session asks it for a pass. Its callback is told, if it has one. -/
theorem Attentive.notify_of_some (h : ws.Attentive) {event : DiagnosticsEvent} {n : SessionNumber}
    {s : Session} (reached : ws.addressee? event = some (n, s)) :
    ws.notify event =
      if (ws.registry.notifier? event.sessionId).isSome then
        (.delivered, { (ws.request n s).2 with calls := ws.calls ++ [.diagnostics n event] })
      else (.noCallback, (ws.request n s).2) := by
  obtain ⟨hopen, isOpen⟩ := addressee?_eq_some_iff.mp reached
  obtain ⟨hget, at_n⟩ := open?_eq_some hopen
  have haccepts : s.acceptsDiagnostics = true := by
    simp [Session.acceptsDiagnostics, isOpen, h.sessions s (List.mem_of_getElem? at_n) isOpen]
  have hrequest : (ws.request n s).1 ≠ .closed := by
    have hfst : (ws.request n s).1 = s.request.1 := by simp only [request]
    rw [hfst]
    unfold Session.request
    rw [isOpen]
    simp only [Bool.false_eq_true, if_false]
    split <;> simp
  have hregistry := registry_request ws n s
  have hcalls := calls_request ws n s
  simp only [notify, hopen, haccepts]
  generalize ws.request n s = result at *
  obtain ⟨outcome, ws'⟩ := result
  dsimp only at hrequest hregistry hcalls
  cases hnotifier : ws.registry.notifier? event.sessionId with
  | none => cases outcome <;> simp_all
  | some callback =>
      -- the callback is that of the session
      have hsame : callback = n := by
        have hcallback := h.notifiers _ _ hnotifier
        rw [hget] at hcallback
        exact (Option.some.inj hcallback).symm
      cases outcome <;> simp_all

theorem Attentive.registry_notify (h : ws.Attentive) (event : DiagnosticsEvent) :
    (ws.notify event).2.registry = ws.registry := by
  cases hreached : ws.addressee? event with
  | none => rw [notify_of_none hreached]
  | some found =>
      rw [h.notify_of_some hreached]
      split <;> exact registry_request ..

/-- The events that have been received after an event has been handled. -/
theorem Attentive.received_notify (h : ws.Attentive) {n : SessionNumber} {wants : Bool}
    (enrolled : ∀ id, ws.registry.get? id = some n →
      ws.registry.notifier? id = if wants then some n else none) (event : DiagnosticsEvent) :
    (ws.notify event).2.received n
      = ws.received n ++ if wants && ws.reaches n event then [event] else [] := by
  cases hreached : ws.addressee? event with
  | none => simp [notify_of_none hreached, reaches, hreached]
  | some found =>
      obtain ⟨m, s⟩ := found
      have hget := (open?_eq_some (addressee?_eq_some_iff.mp hreached).1).1
      rw [h.notify_of_some hreached]
      by_cases hm : m = n
      · subst hm
        rw [enrolled _ hget]
        cases wants <;> simp [received, reaches, hreached, calls_request, Call.event?]
      · split <;> simp [received, reaches, hreached, calls_request, Call.event?, hm]

/-! ## What happens without a word -/

/-- Nothing has been registered or removed, and no callback has been told of diagnostics. -/
structure Quiet (ws ws' : Workspace) : Prop where
  registry : ws'.registry = ws.registry
  received : ∀ n, ws'.received n = ws.received n

theorem quiet_request (ws : Workspace) (n : SessionNumber) (s : Session) :
    ws.Quiet (ws.request n s).2 :=
  ⟨registry_request ws n s, fun m => by rw [received, calls_request, received]⟩

/-- A callback may be told the new text, which is no news of diagnostics. -/
theorem quiet_update {n : SessionNumber} {s : Session} {next : Snapshot}
    (h : ws.update n s next = .ok ws') : ws.Quiet ws' := by
  unfold update at h
  split at h
  · cases h
  · cases h
    split
    · exact ⟨rfl, fun m => by simp [received, setSession, Call.event?]⟩
    · exact ⟨rfl, fun m => rfl⟩

end Workspace

namespace Host

variable {h : Host} {n : SessionNumber} {id : Uuid} {wants : Bool}

/-- Whether an action has nothing to do with the registry and the mailbox. -/
def Action.isQuiet : Action → Bool
  | .openSession _ _ _ | .close _ | .shutdown | .notify _ | .send _ | .listen => false
  | _ => true

theorem quiet_onSession (h : Host) (n : SessionNumber) (change : Session → Workspace)
    (hchange : ∀ s, h.workspace.Quiet (change s)) :
    ∃ ws, h.onSession n change = { h with workspace := ws } ∧ h.workspace.Quiet ws := by
  unfold onSession
  split
  · exact ⟨h.workspace, rfl, rfl, fun _ => rfl⟩
  · next s _ => exact ⟨change s, rfl, hchange s⟩

theorem quiet_perform (h : Host) (a : Action) (quiet : a.isQuiet = true) :
    ∃ ws, h.perform a = { h with workspace := ws } ∧ h.workspace.Quiet ws := by
  have hsame : ∃ ws, h = { h with workspace := ws } ∧ h.workspace.Quiet ws :=
    ⟨h.workspace, rfl, rfl, fun _ => rfl⟩
  cases a with
  | openSession | close | shutdown | notify | send | listen => cases quiet
  | update id next =>
      simp only [perform, update]
      split
      · exact hsame
      · next n s _ =>
          cases hupdate : h.workspace.update n s next with
          | ok ws => exact ⟨ws, rfl, Workspace.quiet_update hupdate⟩
          | error e => cases e <;> exact hsame
  | reprocess id =>
      simp only [perform]
      split
      · exact hsame
      · exact ⟨_, rfl, rfl, fun _ => rfl⟩
  | updateSession n next =>
      refine h.quiet_onSession n _ fun s => ?_
      cases hupdate : h.workspace.update n s next with
      | ok ws => exact Workspace.quiet_update hupdate
      | error e => exact ⟨rfl, fun _ => rfl⟩
  | request n => exact h.quiet_onSession n _ fun s => Workspace.quiet_request h.workspace n s
  | reprocessSession n | cancel n | advance n | drop n | abandon n =>
      exact h.quiet_onSession n _ fun s => ⟨rfl, fun _ => rfl⟩
  | share cache => exact ⟨_, rfl, rfl, fun _ => rfl⟩

/-- What closing a session keeps is kept by closing several. -/
theorem closeAll_induction {P : Host → Prop} (keep : ∀ h id, P h → P (h.close id).2) {h : Host}
    (hh : P h) (ids : List Uuid) : P (ids.foldl (fun h id => (h.close id).2) h) := by
  induction ids generalizing h with
  | nil => exact hh
  | cons id rest ih => exact ih (keep h id hh)

/-! ## The callback of a session -/

/-- The session with number `n` has been opened under an identifier, with a callback or without
one, and as long as it is registered it is registered so. -/
structure Enrolled (n : SessionNumber) (id : Uuid) (wants : Bool) (h : Host) : Prop where
  attentive : h.workspace.Attentive
  there : ∃ s, h.workspace.session? n = some s ∧ s.id = id
  callback : ∀ other, h.workspace.registry.get? other = some n →
    h.workspace.registry.notifier? other = if wants then some n else none

/-- Whatever is done to the registry leaves the callbacks of the sessions that stay. -/
theorem Enrolled.callback_perform (hn : h.Enrolled n id wants) (a : Action) (other : Uuid) :
    (h.perform a).workspace.registry.get? other = some n →
      (h.perform a).workspace.registry.notifier? other = if wants then some n else none := by
  have hsame (registry : SessionRegistry) (heq : registry = h.workspace.registry) :
      registry.get? other = some n → registry.notifier? other = if wants then some n else none :=
    heq ▸ hn.callback other
  have hclose (ids : List Uuid) :
      (ids.foldl (fun h id => (h.close id).2) h).workspace.registry.get? other = some n →
        (ids.foldl (fun h id => (h.close id).2) h).workspace.registry.notifier? other
          = if wants then some n else none := by
    refine closeAll_induction (P := fun t => t.workspace.registry.get? other = some n →
      t.workspace.registry.notifier? other = if wants then some n else none)
      (fun t closing ht => ?_) (hn.callback other) ids
    rw [registry_close, SessionRegistry.get?_remove, SessionRegistry.notifier?_remove]
    split
    · exact nofun
    · exact ht
  cases hquiet : a.isQuiet with
  | true =>
      obtain ⟨ws, heq, hsilent⟩ := h.quiet_perform a hquiet
      rw [heq]
      exact hsame _ hsilent.registry
  | false =>
      cases a with
      | openSession w request ids =>
          rcases opens_open? w h request ids with ⟨-, hnone⟩ | ⟨m, s, -, hopens⟩
          · simp only [perform, hnone]
            exact hn.callback other
          · have hfree : (h.workspace.registry.afterNames ids).contains s.id = false :=
              hopens.free
            have hsilent := hn.attentive.notifier?_of_free hopens.free
            simp only [perform]
            rw [hopens.registry, SessionRegistry.get?_insert hfree,
              SessionRegistry.notifier?_insert hfree hsilent]
            split
            · -- the new session has another number
              obtain ⟨t, at_n, -⟩ := hn.there
              have hm : m ≠ n := by
                rw [hopens.number]
                exact Nat.ne_of_gt (List.getElem?_eq_some_iff.mp at_n).1
              exact fun heq => absurd (Option.some.inj heq) hm
            · exact hn.callback other
      | close closing => exact hclose [closing]
      | shutdown => exact hclose h.workspace.registry.ids
      | notify event => exact hsame _ (hn.attentive.registry_notify event)
      | send event =>
          simp only [perform, send]
          split <;> exact hn.callback other
      | listen =>
          simp only [perform, listen]
          split
          · exact hn.callback other
          · exact hsame _ (hn.attentive.registry_notify _)
      | update | reprocess | updateSession | reprocessSession | request | cancel | advance | drop
      | abandon | share => cases hquiet

theorem Enrolled.perform (hn : h.Enrolled n id wants) (a : Action) :
    (h.perform a).Enrolled n id wants := by
  have heffects := h.effects_perform a
  exact ⟨hn.attentive.effects heffects, Workspace.exists_id_of_effects heffects hn.there,
    hn.callback_perform a⟩

/-- The callback of a session that has just been opened is the one that it was opened with. -/
theorem Opens.enrolled {t : Host} {request : OpenRequest} {ids : List Uuid} {s : Session}
    (attentive : h.workspace.Attentive) (ho : Opens h request ids n s t)
    (attentive' : t.workspace.Attentive) : t.Enrolled n s.id request.wantsDiagnostics := by
  refine ⟨attentive', ⟨s, ho.session?, rfl⟩, fun id => ?_⟩
  have hfree : (h.workspace.registry.afterNames ids).contains s.id = false := ho.free
  rw [ho.registry, SessionRegistry.get?_insert hfree,
    SessionRegistry.notifier?_insert hfree (attentive.notifier?_of_free ho.free)]
  split
  · exact fun _ => rfl
  · -- no other identifier leads to the number of the session
    intro hget
    obtain ⟨u, at_n, -⟩ := attentive.kept.sessions id n (mem_of_lookup hget)
    exact absurd (ho.number ▸ (List.getElem?_eq_some_iff.mp at_n).1) (Nat.lt_irrefl _)

/-! ## What is handled, sent and received -/

/-- The event that an action takes out of the mailbox. -/
def listened? (h : Host) : Action → Option DiagnosticsEvent
  | .listen => h.mailbox.head?
  | _ => none

/-- The event that is handled in an action: it comes from the compiler at once, or out of the
mailbox. -/
def handled? (h : Host) : Action → Option DiagnosticsEvent
  | .notify event => some event
  | a => h.listened? a

/-- The event that an action puts into the mailbox. -/
def sent? (h : Host) : Action → Option DiagnosticsEvent
  | .send event => if h.listening then some event else none
  | _ => none

/-- The event that is handled in an action and reaches the session with number `n`. -/
def heard? (n : SessionNumber) (h : Host) (a : Action) : Option DiagnosticsEvent :=
  (h.handled? a).filter (h.workspace.reaches n)

/-- The events that come up in a run, in order. -/
def events (what : Host → Action → Option DiagnosticsEvent) (h : Host) :
    List Action → List DiagnosticsEvent
  | [] => []
  | a :: rest => (what h a).toList ++ events what (h.perform a) rest

theorem received_close (h : Host) (ids : List Uuid) (n : SessionNumber) :
    (ids.foldl (fun h id => (h.close id).2) h).workspace.received n = h.workspace.received n := by
  refine closeAll_induction (P := fun t => t.workspace.received n = h.workspace.received n)
    (fun t id ht => ?_) rfl ids
  rw [Workspace.received, calls_close]
  exact ht

/-- A callback is told the events that are handled while they reach its session. -/
theorem Enrolled.received_perform (hn : h.Enrolled n id wants) (a : Action) :
    (h.perform a).workspace.received n
      = h.workspace.received n ++ if wants then (heard? n h a).toList else [] := by
  have hnothing (t : Host) (silent : t.workspace.received n = h.workspace.received n)
      (unheard : heard? n h a = none) : t.workspace.received n
        = h.workspace.received n ++ if wants then (heard? n h a).toList else [] := by
    simp [silent, unheard]
  have hnotify (event : DiagnosticsEvent) (handled : h.handled? a = some event) :
      (h.workspace.notify event).2.received n
        = h.workspace.received n ++ if wants then (heard? n h a).toList else [] := by
    rw [hn.attentive.received_notify hn.callback, heard?, handled, Option.filter_some]
    cases wants <;> cases h.workspace.reaches n event <;> rfl
  cases hquiet : a.isQuiet with
  | true =>
      have hunheard : heard? n h a = none := by
        cases a with
        | openSession | close | shutdown | notify | send | listen => cases hquiet
        | update | reprocess | updateSession | reprocessSession | request | cancel | advance | drop
        | abandon | share => rfl
      obtain ⟨ws, heq, hsilent⟩ := h.quiet_perform a hquiet
      rw [heq]
      exact hnothing _ (hsilent.received n) hunheard
  | false =>
      cases a with
      | openSession w request ids =>
          refine hnothing _ ?_ rfl
          rcases opens_open? w h request ids with ⟨-, hnone⟩ | ⟨m, s, -, hopens⟩
          · simp only [Host.perform, hnone]
            rfl
          · rw [Workspace.received]
            exact congrArg (List.filterMap (·.event? n)) hopens.calls
      | close id => exact hnothing _ (h.received_close [id] n) rfl
      | shutdown => exact hnothing _ (h.received_close h.workspace.registry.ids n) rfl
      | notify event => exact hnotify event rfl
      | send event =>
          refine hnothing _ ?_ rfl
          simp only [Host.perform, send]
          split <;> rfl
      | listen =>
          simp only [Host.perform, listen]
          split
          · next hmailbox =>
              refine hnothing h rfl ?_
              simp [heard?, handled?, listened?, hmailbox]
          · next event rest hmailbox =>
              exact hnotify event (by simp [handled?, listened?, hmailbox])
      | update | reprocess | updateSession | reprocessSession | request | cancel | advance | drop
      | abandon | share => cases hquiet

/-- A callback is told exactly the events that are handled while they reach its session. -/
theorem Enrolled.received_run (hn : h.Enrolled n id wants) (actions : List Action) :
    (h.run actions).workspace.received n
      = h.workspace.received n ++ if wants then events (heard? n) h actions else [] := by
  induction actions generalizing h with
  | nil => cases wants <;> simp [run, events]
  | cons a rest ih =>
      have hrest := ih (hn.perform a)
      rw [hn.received_perform] at hrest
      rw [show h.run (a :: rest) = (h.perform a).run rest from rfl, hrest]
      cases wants <;> simp [events]

/-! ## The mailbox -/

/-- The mailbox gives out what is put into it, oldest first. Events are lost only when it is closed,
and it is not opened again. -/
theorem mailbox_perform (h : Host) (a : Action) :
    ∃ lost, h.mailbox ++ (h.sent? a).toList
        = (h.listened? a).toList ++ (h.perform a).mailbox ++ lost ∧
      ((h.perform a).listening = true → h.listening = true ∧ lost = []) := by
  have hsame (t : Host) (mailbox : t.mailbox = h.mailbox) (listening : t.listening = h.listening) :
      ∃ lost, h.mailbox ++ [] = [] ++ t.mailbox ++ lost ∧
        (t.listening = true → h.listening = true ∧ lost = []) :=
    ⟨[], by simp [mailbox], fun hopen => ⟨listening ▸ hopen, rfl⟩⟩
  cases hquiet : a.isQuiet with
  | true =>
      have hnothing : h.sent? a = none ∧ h.listened? a = none := by
        cases a with
        | openSession | close | shutdown | notify | send | listen => cases hquiet
        | update | reprocess | updateSession | reprocessSession | request | cancel | advance | drop
        | abandon | share => exact ⟨rfl, rfl⟩
      obtain ⟨ws, heq, -⟩ := h.quiet_perform a hquiet
      rw [heq, hnothing.1, hnothing.2]
      exact hsame _ rfl rfl
  | false =>
      cases a with
      | openSession w request ids =>
          rcases opens_open? w h request ids with ⟨-, hnone⟩ | ⟨m, s, -, hopens⟩
          · refine hsame _ ?_ ?_ <;> simp only [perform, hnone, withRegistry]
          · exact hsame _ hopens.mailbox hopens.listening
      | close id => exact hsame _ rfl rfl
      | shutdown =>
          exact ⟨h.mailbox, List.append_nil _, fun hopen => absurd hopen Bool.false_ne_true⟩
      | notify event => exact hsame _ rfl rfl
      | send event =>
          refine ⟨[], ?_, ?_⟩ <;> cases hopen : h.listening <;>
            simp [sent?, listened?, perform, send, hopen]
      | listen =>
          refine ⟨[], ?_, ?_⟩ <;> cases hmailbox : h.mailbox <;>
            simp [sent?, listened?, perform, listen, hmailbox, notify]
      | update | reprocess | updateSession | reprocessSession | request | cancel | advance | drop
      | abandon | share => cases hquiet

/-- A mailbox that is open has never been closed. -/
theorem listening_of_run (actions : List Action) (isOpen : (h.run actions).listening = true) :
    h.listening = true := by
  induction actions generalizing h with
  | nil => exact isOpen
  | cons a rest ih =>
      obtain ⟨lost, -, hopen⟩ := h.mailbox_perform a
      exact (hopen (ih isOpen)).1

/-- Nothing is sent through a mailbox that has been closed. -/
theorem events_sent_of_closed (closed : h.listening = false) (actions : List Action) :
    events sent? h actions = [] := by
  induction actions generalizing h with
  | nil => rfl
  | cons a rest ih =>
      have hstill : (h.perform a).listening = false := by
        rw [Bool.eq_false_iff]
        intro hopen
        rw [listening_of_run [a] hopen] at closed
        cases closed
      have hnone : h.sent? a = none := by
        cases a with
        | send event => exact if_neg (by simp [closed])
        | _ => rfl
      simp [events, ih hstill, hnone]

/-- What has been sent is handled in the order in which it was sent, as long as the mailbox is
open. -/
theorem mailbox_run (h : Host) (actions : List Action) :
    ∃ lost, h.mailbox ++ events sent? h actions
        = events listened? h actions ++ (h.run actions).mailbox ++ lost ∧
      ((h.run actions).listening = true → lost = []) := by
  induction actions generalizing h with
  | nil => exact ⟨[], by simp [events, run], fun _ => rfl⟩
  | cons a rest ih =>
      obtain ⟨lost, hfirst, hopen⟩ := h.mailbox_perform a
      obtain ⟨lost', hrest, hopen'⟩ := ih (h.perform a)
      rw [show h.run (a :: rest) = (h.perform a).run rest from rfl, events, events,
        ← List.append_assoc, hfirst]
      cases hlistening : (h.perform a).listening with
      | true =>
          obtain ⟨-, rfl⟩ := hopen hlistening
          exact ⟨lost', by rw [List.append_nil, List.append_assoc, hrest]; simp, hopen'⟩
      | false =>
          -- what was lost by closing the mailbox comes after everything that is handled
          have hnone := events_sent_of_closed hlistening rest
          rw [hnone, List.append_nil] at hrest ⊢
          refine ⟨lost' ++ lost, by rw [hrest]; simp, fun hlate => ?_⟩
          rw [listening_of_run rest hlate] at hlistening
          cases hlistening

/-! ## Delivery -/

/-- What becomes of an event that is handled in a host. -/
structure Routes (h : Host) (event : DiagnosticsEvent) : Prop where
  /-- The event is delivered, or there is no callback, exactly if it reaches a session. -/
  outcome : (h.notify event).1 = match h.workspace.addressee? event with
    | none => .dropped
    | some _ =>
      if (h.workspace.registry.notifier? event.sessionId).isSome then .delivered else .noCallback
  /-- The session that it reaches then has a scheduled pass waiting that had not started before. -/
  waiting : ∀ n s, h.workspace.addressee? event = some (n, s) →
    ∃ (t : Session) (i : Nat) (p : Pass), (h.notify event).2.workspace.session? n = some t ∧
      t.passes[i]? = some p ∧ p.isWaiting = true ∧
      ∀ q : Pass, s.passes[i]? = some q → q.isWaiting = true
  /-- If it reaches no session, nothing happens. -/
  dropped : h.workspace.addressee? event = none → (h.notify event).2 = h

theorem routes_of_attentive (attentive : h.workspace.Attentive) (event : DiagnosticsEvent) :
    h.Routes event := by
  refine ⟨?_, fun n s reached => ?_, fun nobody => ?_⟩
  · cases hreached : h.workspace.addressee? event with
    | none => simp only [notify, Workspace.notify_of_none hreached]
    | some found =>
        simp only [notify, attentive.notify_of_some hreached]
        split <;> rfl
  · obtain ⟨hopen, isOpen⟩ := Workspace.addressee?_eq_some_iff.mp reached
    have at_n := (Workspace.open?_eq_some hopen).2
    obtain ⟨i, p, at_i, hwaiting, hbefore⟩ :=
      (attentive.gates s (List.mem_of_getElem? at_n)).exists_waiting isOpen
    have hsession : (h.workspace.request n s).2.session? n = some s.request.2 := by
      rw [Workspace.session?, Workspace.sessions_request]
      exact Workspace.session?_setSession_self at_n _
    refine ⟨s.request.2, i, p, ?_, at_i, hwaiting, hbefore⟩
    simp only [notify, attentive.notify_of_some reached]
    split <;> exact hsession
  · simp only [notify, Workspace.notify_of_none nobody]

/-- What the callback of the session with number `n` gets to know: the session has been opened in
the host `t`, with a callback if it `wants` one, and then `after` has happened. -/
structure Hears (t : Host) (n : SessionNumber) (wants : Bool) (after : List Action) : Prop where
  /-- The callback is told each event that is handled while it reaches the session, in order. -/
  received : (t.run after).workspace.received n
    = if wants then events (heard? n) t after else []
  /-- All of them carry the identifier of the session. -/
  own : ∃ s, t.workspace.session? n = some s ∧
    ∀ event ∈ (t.run after).workspace.received n, event.sessionId = s.id
  /-- Events that are sent are handled in the order in which they are sent, until the mailbox is
  closed. -/
  order : ∃ lost, t.mailbox ++ events sent? t after
      = events listened? t after ++ (t.run after).mailbox ++ lost ∧
    ((t.run after).listening = true → lost = [])

/-- An event that is heard carries the identifier of the session. -/
theorem Enrolled.sessionId_of_heard (hn : h.Enrolled n id wants) {event : DiagnosticsEvent}
    (actions : List Action) (heard : event ∈ events (heard? n) h actions) :
    event.sessionId = id := by
  induction actions generalizing h with
  | nil => cases heard
  | cons a rest ih =>
      rcases List.mem_append.mp heard with hfirst | hrest
      · have hreaches : h.workspace.reaches n event = true :=
          (Option.filter_eq_some_iff.mp (Option.mem_toList.mp hfirst)).2
        exact hn.attentive.sessionId_of_reaches hn.there hreaches
      · exact ih (hn.perform a) hrest

theorem Reachable.attentive (reachable : h.Reachable) : h.workspace.Attentive :=
  reachable.induction (P := fun h => h.workspace.Attentive)
    (fun w config overrides =>
      Workspace.attentive_of_empty (by simp [new]) (by simp [new]) (by simp [new]))
    fun h a attentive => attentive.effects (h.effects_perform a)

/-- **News of diagnostics is delivered in order.** In any host that may come about, an event that is
handled reaches the session under its identifier or is dropped. Once a session has been opened,
whatever happens, its callback is told exactly the events that reach it, in the order in which they
are handled. -/
theorem delivered_in_order (h : Host) (reachable : h.Reachable) :
    (∀ event, h.Routes event) ∧
      ∀ w request ids n, (h.open? w request ids).1 = some n → ∀ after,
        (h.open? w request ids).2.Hears n request.wantsDiagnostics after := by
  have attentive := reachable.attentive
  refine ⟨routes_of_attentive attentive, fun w request ids n opened after => ?_⟩
  rcases opens_open? w h request ids with ⟨-, hnone⟩ | ⟨m, s, hsome, hopens⟩
  · rw [hnone] at opened
    cases opened
  · obtain rfl := Option.some.inj (hsome.symm.trans opened)
    have hn := hopens.enrolled attentive
      (attentive.effects (h.effects_perform (.openSession w request ids)))
    -- no callback can have been told of the session before it was opened
    have hnothing : (h.open? w request ids).2.workspace.received m = [] := by
      refine List.filterMap_eq_nil_iff.mpr fun call hcall => ?_
      rw [hopens.calls] at hcall
      obtain ⟨t, at_call⟩ := attentive.calls call hcall
      have hlt := (List.getElem?_eq_some_iff.mp at_call).1
      cases call with
      | textChanged => rfl
      | diagnostics k event => exact if_neg (hopens.number ▸ Nat.ne_of_lt hlt)
    have hreceived := hn.received_run after
    rw [hnothing, List.nil_append] at hreceived
    refine ⟨hreceived, ⟨s, hopens.session?, fun event hevent => ?_⟩, Host.mailbox_run _ after⟩
    rw [hreceived] at hevent
    cases hwants : request.wantsDiagnostics with
    | true =>
        rw [hwants, if_pos rfl] at hevent
        exact hn.sessionId_of_heard after hevent
    | false =>
        rw [hwants, if_neg Bool.false_ne_true] at hevent
        cases hevent

/-- A host whose mailbox holds an event for a session that has not been opened yet. -/
def expectant : Host := (new default default).run [.send ⟨.nil, 1, []⟩]

/-- Events come through the mailbox and past it, also for a session that nobody knows. The session
is closed before the last of them is handled. -/
def mixedNews : List Action :=
  [.send ⟨.nil, 2, []⟩, .notify ⟨.nil, 3, []⟩, .listen, .send ⟨secondId, 4, []⟩, .listen, .listen,
    .send ⟨.nil, 5, []⟩, .close .nil, .listen]

/-- The event that was sent too early is dropped if it is handled too early. After the session has
been opened, its callback is told of three events. -/
theorem expectant_delivered :
    expectant.Routes ⟨.nil, 1, []⟩ ∧ (expectant.notify ⟨.nil, 1, []⟩).1 = .dropped ∧
    (expectant.open? default { wantsDiagnostics := true } [.nil]).2.Hears 0 true mixedNews ∧
    ((expectant.open? default { wantsDiagnostics := true } [.nil]).2.run
      mixedNews).workspace.received 0 = [⟨.nil, 3, []⟩, ⟨.nil, 1, []⟩, ⟨.nil, 2, []⟩] := by
  have h := delivered_in_order expectant ⟨default, default, [], [.send ⟨.nil, 1, []⟩], rfl⟩
  have hears := h.2 default { wantsDiagnostics := true } [.nil] 0 (by rfl) mixedNews
  exact ⟨h.1 _, by rfl, hears, by rfl⟩

end Host

end ScriptSessions
