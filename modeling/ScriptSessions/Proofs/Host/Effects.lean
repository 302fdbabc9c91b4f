import ScriptSessions.Host.Basic
import ScriptSessions.Proofs.Lists
import ScriptSessions.Proofs.Session.Closing

set_option autoImplicit false

/-! # What happens to a host

Clients call a host by the identifier of a session, and once they have got hold of a session
they call it directly, also after it has been closed; the compiler sends its news; and the
passes of all sessions go on one at a time. A `Host.Action` is one of these, from one point where
the program may be suspended to the next, and a run is a list of actions.

Whatever an action does to the workspace is made of a few basic effects (`Workspace.Effect`): a
session takes a turn, a callback is told something, a session is added, registered or removed.
What holds of the basic effects therefore holds of every run. Each effect says what it needs to
be possible: an open session, or a callback that is registered.

The cache is shared with clients that resolve locations of their own. What they do to it between
two actions is left open (`Host.Action.share`), and so are the fetches that a pass finds in
flight beside its own. All other actions are *calm*: they leave the cache alone, and no pass
goes on.
-/

namespace ScriptSessions

open Reference

/-- The session that a callback belongs to. -/
def Call.session : Call → SessionNumber
  | .textChanged n _ | .diagnostics n _ => n

/-- Only an open session takes an update, and it stays open. -/
theorem Session.closed_of_update {s t : Session} {next : Snapshot} (h : s.update next = .ok t) :
    s.closed = false ∧ t.closed = false := by
  unfold Session.update at h
  split at h
  · cases h
  · next hc =>
      split at h
      · cases h
      · cases h
        have hopen : s.closed = false := by simpa using hc
        exact ⟨hopen, hopen⟩

namespace Workspace

/-! ## Basic effects -/

/-- The basic effects on a workspace. Sessions are registered only under identifiers from the
list `offered`. As long as it is `calm`, the cache stays as it is, and no pass goes on. -/
inductive Effect (offered : List Uuid) (calm : Bool) (ws : Workspace) : Workspace → Prop where
  /-- The queue and the number of project names change. -/
  | aside (queue : List SessionNumber) (names : UInt64) :
      Effect offered calm ws { ws with queue, registry := { ws.registry with namesGiven := names } }
  /-- The cache is used. -/
  | share (cache : Cache) (busy : calm = false) : Effect offered calm ws { ws with cache }
  /-- Something happens to a session that is no step of a pass. -/
  | act (n : SessionNumber) (s : Session) (a : Session.Action) (at_n : ws.session? n = some s)
      (ha : a.isStep = false) : Effect offered calm ws (ws.setSession n (s.perform a))
  /-- A pass of a session goes on. -/
  | advance (n : SessionNumber) (s : Session) (i : Nat) (w : World) (others : List Fetch)
      (c : Cache) (at_n : ws.session? n = some s) (busy : calm = false) :
      Effect offered calm ws (ws.setSession n (s.advancePass w others c i).1)
  /-- The callback of an open session is told the new text. -/
  | tell (n : SessionNumber) (s : Session) (text : String) (at_n : ws.session? n = some s)
      (isOpen : s.closed = false) :
      Effect offered calm ws { ws with calls := ws.calls ++ [.textChanged n text] }
  /-- A registered callback is told of diagnostics. -/
  | deliver (id : Uuid) (n : SessionNumber) (event : DiagnosticsEvent)
      (registered : (id, n) ∈ ws.registry.notifiers) :
      Effect offered calm ws { ws with calls := ws.calls ++ [.diagnostics n event] }
  /-- A session without passes and findings is added, whose gate has not been used and which
  diagnostics are delivered to. -/
  | add (s : Session) (new : s.passes = []) (blank : s.findings = {}) (unused : s.gate = {})
      (delivering : s.delivering = true) :
      Effect offered calm ws { ws with sessions := ws.sessions ++ [s] }
  /-- An open session is registered. -/
  | register (n : SessionNumber) (s : Session) (withCallback : Bool)
      (at_n : ws.session? n = some s) (isOpen : s.closed = false) (mem : s.id ∈ offered) :
      Effect offered calm ws (ws.register n withCallback).2
  /-- Whatever is registered under an identifier is removed. -/
  | unregister (id : Uuid) : Effect offered calm ws (ws.unregister id).2

/-- Several basic effects, one after another. -/
def Effects (offered : List Uuid) (calm : Bool) : Workspace → Workspace → Prop :=
  Relation.ReflTransGen (Effect offered calm)

variable {offered : List Uuid} {calm : Bool} {ws ws' : Workspace}

theorem open?_eq_some {id : Uuid} {n : SessionNumber} {s : Session}
    (h : ws.open? id = some (n, s)) :
    ws.registry.get? id = some n ∧ ws.session? n = some s := by
  obtain ⟨m, hget, hm⟩ := Option.bind_eq_some_iff.mp h
  obtain ⟨t, ht, heq⟩ := Option.map_eq_some_iff.mp hm
  cases heq
  exact ⟨hget, ht⟩

theorem session?_setSession_self {n : SessionNumber} {s : Session} (at_n : ws.session? n = some s)
    (t : Session) : (ws.setSession n t).session? n = some t :=
  List.getElem?_set_self (List.getElem?_eq_some_iff.mp at_n).1

theorem session?_setSession_ne {m n : SessionNumber} (h : m ≠ n) (t : Session) :
    (ws.setSession m t).session? n = ws.session? n :=
  List.getElem?_set_ne h

theorem sessions_register (n : SessionNumber) (withCallback : Bool) :
    (ws.register n withCallback).2.sessions = ws.sessions := by
  unfold register
  split <;> rfl

theorem calls_register (n : SessionNumber) (withCallback : Bool) :
    (ws.register n withCallback).2.calls = ws.calls := by
  unfold register
  split <;> rfl

theorem session?_register (n m : SessionNumber) (withCallback : Bool) :
    (ws.register n withCallback).2.session? m = ws.session? m := by
  rw [session?, sessions_register, session?]

/-! ## What a basic effect can do

The invariants of a workspace and of its closed sessions are derived from these facts alone. -/

/-- A turn of one session leaves the others alone. -/
theorem exists_session?_setSession {m n : SessionNumber} {s t u : Session}
    (at_m : ws.session? m = some u) (hturn : u.Turn t) (at_n : ws.session? n = some s) :
    ∃ t', (ws.setSession m t).session? n = some t' ∧ s.Turns t' := by
  by_cases hm : m = n
  · subst hm
    rw [at_m] at at_n
    cases at_n
    exact ⟨t, session?_setSession_self at_m t, .single hturn⟩
  · exact ⟨s, by rw [session?_setSession_ne hm, at_n], .refl⟩

/-- A session that is there stays there under its number, and takes turns. -/
theorem Effect.session? (he : ws.Effect offered calm ws') {n : SessionNumber} {s : Session}
    (at_n : ws.session? n = some s) : ∃ t, ws'.session? n = some t ∧ s.Turns t := by
  cases he with
  | aside | share | tell | deliver | unregister => exact ⟨s, at_n, .refl⟩
  | act m u a at_m ha => exact exists_session?_setSession at_m (.act a ha) at_n
  | advance m u i w others c at_m =>
      exact exists_session?_setSession at_m (.advance w others c i) at_n
  | add t =>
      have hn := (List.getElem?_eq_some_iff.mp at_n).1
      exact ⟨s, (List.getElem?_append_left hn).trans at_n, .refl⟩
  | register m t b => exact ⟨s, by rw [session?_register, at_n], .refl⟩

/-- What new sessions have and every turn keeps is kept for all sessions. -/
theorem Effect.forall_sessions {P : Session → Prop} (turn : ∀ s t, s.Turn t → P s → P t)
    (new : ∀ s : Session, s.passes = [] → s.findings = {} → s.gate = {} → s.delivering = true →
      P s)
    (he : ws.Effect offered calm ws') (h : ∀ s ∈ ws.sessions, P s) : ∀ s ∈ ws'.sessions, P s := by
  have hset {n : SessionNumber} {s t : Session} (at_n : ws.session? n = some s)
      (hturn : s.Turn t) : ∀ u ∈ (ws.setSession n t).sessions, P u := by
    intro u hu
    rcases List.mem_or_eq_of_mem_set hu with hmem | rfl
    · exact h u hmem
    · exact turn s _ hturn (h s (List.mem_of_getElem? at_n))
  cases he with
  | aside | share | tell | deliver | unregister => exact h
  | act n s a at_n ha => exact hset at_n (.act a ha)
  | advance n s i w others c at_n => exact hset at_n (.advance w others c i)
  | add s passes blank unused delivering =>
      intro u hu
      rcases List.mem_append.mp hu with hmem | hlast
      · exact h u hmem
      · rw [List.mem_singleton.mp hlast]
        exact new s passes blank unused delivering
  | register n s b => exact fun u hu => h u (sessions_register n b ▸ hu)

/-- The same of several effects. -/
theorem Effects.forall_sessions {P : Session → Prop} (turn : ∀ s t, s.Turn t → P s → P t)
    (new : ∀ s : Session, s.passes = [] → s.findings = {} → s.gate = {} → s.delivering = true →
      P s)
    (he : ws.Effects offered calm ws') (h : ∀ s ∈ ws.sessions, P s) : ∀ s ∈ ws'.sessions, P s := by
  induction he with
  | refl => exact h
  | tail _ hlast ih => exact hlast.forall_sessions turn new ih

/-- No pass is just leaving after an effect, if none was before. -/
theorem Effect.between (he : ws.Effect offered calm ws') (h : ∀ s ∈ ws.sessions, s.BetweenTurns) :
    ∀ s ∈ ws'.sessions, s.BetweenTurns := by
  refine he.forall_sessions (fun s t hturn hs => ?_) (fun s passes _ _ _ p hp => ?_) h
  · have hturns : s.Turns t := .single hturn
    exact hturns.betweenTurns hs
  · rw [passes] at hp
    cases hp

/-- What is registered after an effect was registered before, or is an open session under its own
identifier, which was offered. -/
theorem Effect.mem_sessions (he : ws.Effect offered calm ws') {id : Uuid} {n : SessionNumber}
    (h : (id, n) ∈ ws'.registry.sessions) : (id, n) ∈ ws.registry.sessions ∨
      id ∈ offered ∧ ∃ s, ws.session? n = some s ∧ s.closed = false ∧ s.id = id := by
  cases he with
  | aside | share | act | advance | tell | deliver | add => exact .inl h
  | register m s b at_m isOpen mem =>
      simp only [Workspace.register, at_m, SessionRegistry.insert] at h
      split at h
      · exact .inl h
      · rcases List.mem_append.mp h with hold | hnew
        · exact .inl hold
        · cases List.mem_singleton.mp hnew
          exact .inr ⟨mem, s, at_m, isOpen, rfl⟩
  | unregister id' => exact .inl (List.mem_filter.mp h).1

/-- The same of the callbacks. -/
theorem Effect.mem_notifiers (he : ws.Effect offered calm ws') {id : Uuid} {n : SessionNumber}
    (h : (id, n) ∈ ws'.registry.notifiers) : (id, n) ∈ ws.registry.notifiers ∨
      ∃ s, ws.session? n = some s ∧ s.closed = false ∧ s.id = id := by
  cases he with
  | aside | share | act | advance | tell | deliver | add => exact .inl h
  | register m s b at_m isOpen =>
      simp only [Workspace.register, at_m, SessionRegistry.insert] at h
      split at h
      · exact .inl h
      · cases b with
        | false => exact .inl h
        | true =>
            rcases List.mem_append.mp h with hold | hnew
            · exact .inl (List.mem_filter.mp hold).1
            · cases List.mem_singleton.mp hnew
              exact .inr ⟨s, at_m, isOpen, rfl⟩
  | unregister id' => exact .inl (List.mem_filter.mp h).1

/-- At most one callback is told something, of a session that is open or registered for it. -/
theorem Effect.calls (he : ws.Effect offered calm ws') : ws'.calls = ws.calls ∨
    ∃ call, ws'.calls = ws.calls ++ [call] ∧
      ((∃ s, ws.session? call.session = some s ∧ s.closed = false) ∨
        ∃ id, (id, call.session) ∈ ws.registry.notifiers) := by
  cases he with
  | aside | share | act | advance | add | unregister => exact .inl rfl
  | tell n s text at_n isOpen => exact .inr ⟨_, rfl, .inl ⟨s, at_n, isOpen⟩⟩
  | deliver id n event registered => exact .inr ⟨_, rfl, .inr ⟨id, registered⟩⟩
  | register n s b => exact .inl (calls_register n b)

/-! ## What the operations of a workspace are made of -/

theorem effects_act {n : SessionNumber} {s : Session} (at_n : ws.session? n = some s)
    (a : Session.Action) (ha : a.isStep = false) :
    Effects offered calm ws (ws.setSession n (s.perform a)) :=
  .single (.act n s a at_n ha)

theorem effects_request {n : SessionNumber} {s : Session} (at_n : ws.session? n = some s) :
    Effects offered calm ws (ws.request n s).2 := by
  have hturn : Effects offered calm ws (ws.setSession n s.request.2) :=
    effects_act at_n .request rfl
  simp only [request]
  split
  · exact hturn.tail (.aside (ws.queue ++ [n]) _)
  · exact hturn

theorem effects_update {n : SessionNumber} {s : Session} {next : Snapshot} {ws' : Workspace}
    (at_n : ws.session? n = some s) (h : ws.update n s next = .ok ws') :
    Effects offered calm ws ws' := by
  unfold update at h
  split at h
  · cases h
  · next t hupdate =>
      have hperform : s.perform (.update next) = t := by
        simp [Session.perform, hupdate, Except.toOption]
      have hturn : Effects offered calm ws (ws.setSession n t) :=
        hperform ▸ effects_act at_n (.update next) rfl
      cases h
      split
      · exact hturn.tail (.tell n t next.text (session?_setSession_self at_n t)
          (Session.closed_of_update hupdate).2)
      · exact hturn

theorem effects_notify (event : DiagnosticsEvent) :
    Effects offered calm ws (ws.notify event).2 := by
  unfold notify
  split
  · exact .refl
  · next n s hopen =>
      have hrequest : Effects offered calm ws (ws.request n s).2 :=
        effects_request (open?_eq_some hopen).2
      split
      · exact .refl
      · split
        · next ws' hws => rw [hws] at hrequest; exact hrequest
        · next ws' _ hws =>
            rw [hws] at hrequest
            split
            · exact hrequest
            · next callback hcallback =>
                exact hrequest.tail (.deliver event.sessionId callback event
                  (mem_of_lookup hcallback))

end Workspace

/-! ## Actions of a host -/

namespace Host

/-- The host after a change that concerns the session with the given number, if there is one. -/
def onSession (h : Host) (n : SessionNumber) (change : Session → Workspace) : Host :=
  match h.workspace.session? n with
  | none => h
  | some s => { h with workspace := change s }

/-- Something that happens to a host, from one point where the program may be suspended to the
next. Sessions that are given by number are called by a client that has got hold of them. -/
inductive Action where
  /-- A session is opened under one of the candidate identifiers. -/
  | openSession (w : World) (request : OpenRequest) (ids : List Uuid)
  | close (id : Uuid)
  | shutdown
  | update (id : Uuid) (next : Snapshot)
  /-- A pass is asked for that its client waits for. -/
  | reprocess (id : Uuid)
  | updateSession (n : SessionNumber) (next : Snapshot)
  | reprocessSession (n : SessionNumber)
  /-- A pass is asked for that nobody waits for. -/
  | request (n : SessionNumber)
  /-- The token of a session is cancelled. -/
  | cancel (n : SessionNumber)
  | notify (event : DiagnosticsEvent)
  | send (event : DiagnosticsEvent)
  | listen
  /-- A pass goes on, beside the fetches of everyone else. -/
  | advance (n : SessionNumber) (i : Nat) (w : World) (others : List Fetch)
  /-- A scheduled pass is dropped because its session is closed. -/
  | drop (n : SessionNumber) (i : Nat)
  /-- The client that waits for a pass gives up on it. -/
  | abandon (n : SessionNumber) (i : Nat)
  /-- Other clients have used the cache. -/
  | share (cache : Cache)

/-- The identifiers that an action may register a session under. -/
def Action.offered : Action → List Uuid
  | .openSession _ _ ids => ids
  | _ => []

/-- Whether an action leaves the cache alone, and no pass goes on. -/
def Action.isCalm : Action → Bool
  | .advance _ _ _ _ | .share _ => false
  | _ => true

/-- The host after an action. -/
def perform (h : Host) : Action → Host
  | .openSession w request ids => (h.open? w request ids).2
  | .close id => (h.close id).2
  | .shutdown => h.shutdown
  | .update id next => ((h.update id next).toOption.map (·.2)).getD h
  | .reprocess id =>
    match h.workspace.open? id with
    | none => h
    | some (n, s) => { h with workspace := h.workspace.setSession n s.requestNow }
  | .updateSession n next =>
    h.onSession n fun s => (h.workspace.update n s next).toOption.getD h.workspace
  | .reprocessSession n => h.onSession n fun s => h.workspace.setSession n s.requestNow
  | .request n => h.onSession n fun s => (h.workspace.request n s).2
  | .cancel n => h.onSession n fun s => h.workspace.setSession n s.cancel
  | .notify event => (h.notify event).2
  | .send event => h.send event
  | .listen => h.listen
  | .advance n i w others =>
    h.onSession n fun s =>
      let (s, cache) := s.advancePass w others h.workspace.cache i
      { h.workspace.setSession n s with cache }
  | .drop n i => h.onSession n fun s => h.workspace.setSession n (s.movePass Pass.drop i)
  | .abandon n i => h.onSession n fun s => h.workspace.setSession n (s.movePass Pass.abandon i)
  | .share cache => { h with workspace := { h.workspace with cache } }

/-- The host after a list of actions. -/
def run (h : Host) (actions : List Action) : Host := actions.foldl perform h

/-! ## What the actions of a host are made of -/

variable {offered : List Uuid} {calm : Bool}

theorem effects_open? (w : World) (h : Host) (request : OpenRequest) (ids : List Uuid)
    (hids : ∀ id ∈ ids, id ∈ offered) :
    h.workspace.Effects offered calm (h.open? w request ids).2.workspace := by
  induction ids generalizing h with
  | nil => exact .refl
  | cons id rest ih =>
      -- every candidate uses up a project name, also one that is taken
      have hname : h.workspace.Effects offered calm h.workspace.nextProjectName.2 :=
        .single (.aside h.workspace.queue (h.workspace.registry.namesGiven + 1))
      have hrest := ih { h with workspace := h.workspace.nextProjectName.2 } fun id' hid' =>
        hids id' (List.mem_cons_of_mem _ hid')
      simp only [open?]
      split
      · exact hname.trans hrest
      · generalize h.workspace.nextProjectName.2 = ws at *
        generalize hs : Session.create w.directory id h.workspace.nextProjectName.1 request
          (request.options.getD h.config.compilationOptions) h.overrides = s
        have hnew : s.passes = [] ∧ s.closed = false ∧ s.id = id := by
          rw [← hs]
          exact ⟨rfl, rfl, rfl⟩
        have hblank : s.findings = {} := by rw [← hs]; rfl
        have hunused : s.gate = {} := by rw [← hs]; rfl
        have hdelivering : s.delivering = true := by rw [← hs]; rfl
        -- the session is added first and registered under the number that it got
        have hadd : h.workspace.Effects offered calm (ws.addSession s).2 :=
          hname.tail (.add s hnew.1 hblank hunused hdelivering)
        have at_n : (ws.addSession s).2.session? ws.sessions.length = some s := by
          simp [Workspace.addSession, Workspace.session?]
        have hregister := hadd.tail (.register ws.sessions.length s request.wantsDiagnostics at_n
          hnew.2.1 (hnew.2.2 ▸ hids id List.mem_cons_self))
        split
        · exact hregister.trans (Workspace.effects_request
            ((Workspace.session?_register ..).trans at_n))
        · exact hregister

theorem effects_close (h : Host) (id : Uuid) :
    h.workspace.Effects offered calm (h.close id).2.workspace := by
  have hclose : h.workspace.Effects offered calm (match h.workspace.open? id with
      | none => h.workspace
      | some (n, s) => h.workspace.setSession n s.close) := by
    split
    · exact .refl
    · next n s hopen => exact Workspace.effects_act (Workspace.open?_eq_some hopen).2 .close rfl
  exact hclose.tail (.unregister id)

theorem effects_closeAll (ids : List Uuid) (h : Host) :
    h.workspace.Effects offered calm (ids.foldl (fun h id => (h.close id).2) h).workspace := by
  induction ids generalizing h with
  | nil => exact .refl
  | cons id rest ih => exact (h.effects_close id).trans (ih _)

theorem effects_onSession (h : Host) (n : SessionNumber) (change : Session → Workspace)
    (hchange : ∀ s, h.workspace.session? n = some s → h.workspace.Effects offered calm (change s)) :
    h.workspace.Effects offered calm (h.onSession n change).workspace := by
  unfold onSession
  split
  · exact .refl
  · next s at_n => exact hchange s at_n

/-- What an action does to the workspace is made of basic effects. -/
theorem effects_perform (h : Host) (a : Action) :
    h.workspace.Effects a.offered a.isCalm (h.perform a).workspace := by
  cases a with
  | openSession w request ids => exact effects_open? w h request ids fun _ hid => hid
  | close id => exact h.effects_close id
  | shutdown => exact effects_closeAll h.workspace.registry.ids h
  | update id next =>
      simp only [perform, update]
      split
      · exact .refl
      · next n s hopen =>
          cases hupdate : h.workspace.update n s next with
          | ok ws => exact Workspace.effects_update (Workspace.open?_eq_some hopen).2 hupdate
          | error e => cases e <;> exact .refl
  | reprocess id =>
      simp only [perform]
      split
      · exact .refl
      · next n s hopen =>
          exact Workspace.effects_act (Workspace.open?_eq_some hopen).2 .requestNow rfl
  | updateSession n next =>
      refine h.effects_onSession n _ fun s at_n => ?_
      cases hupdate : h.workspace.update n s next with
      | error e => exact .refl
      | ok ws => exact Workspace.effects_update at_n hupdate
  | reprocessSession n =>
      exact h.effects_onSession n _ fun s at_n => Workspace.effects_act at_n .requestNow rfl
  | request n => exact h.effects_onSession n _ fun s at_n => Workspace.effects_request at_n
  | cancel n => exact h.effects_onSession n _ fun s at_n => Workspace.effects_act at_n .cancel rfl
  | notify event => exact Workspace.effects_notify event
  | send event =>
      simp only [perform, send]
      split <;> exact .refl
  | listen =>
      simp only [perform, listen]
      split
      · exact .refl
      · exact Workspace.effects_notify _
  | advance n i w others =>
      refine h.effects_onSession n _ fun s at_n => ?_
      exact Relation.ReflTransGen.tail (.single (.advance n s i w others _ at_n rfl))
        (.share _ rfl)
  | drop n i =>
      exact h.effects_onSession n _ fun s at_n => Workspace.effects_act at_n (.drop i) rfl
  | abandon n i =>
      exact h.effects_onSession n _ fun s at_n => Workspace.effects_act at_n (.abandon i) rfl
  | share cache => exact .single (.share cache rfl)

end Host

end ScriptSessions
