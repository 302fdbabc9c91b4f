import ScriptSessions.Proofs.Host.Delivery
import ScriptSessions.Proofs.Host.Live

set_option autoImplicit false

/-! # Sessions do not disturb each other

All sessions share the registry, the mailbox, the list of calls and the cache. An action concerns
the session that it names by its number, or that is registered under the identifier it is given
(`Host.Concerns`). Whatever does not concern a session leaves the whole of it as it was: its
record with snapshot, findings, gate and passes, the identifiers and the callback that lead to it,
what its callback has been told, and the events that wait for it (`Host.Spares`).

The one fact that this rests on is that a callback stands beside its own session in the registry.
Without it, removing one session could take away the callback of another.
-/

namespace ScriptSessions

open Reference

namespace Workspace

variable {ws ws' ws'' : Workspace} {m n : SessionNumber}

/-! ## What a workspace leaves alone -/

/-- A session is as it was, and so is all that leads to it and comes from it. -/
structure Spares (m : SessionNumber) (ws ws' : Workspace) : Prop where
  session : ws'.session? m = ws.session? m
  registered : ∀ id, ws'.registry.get? id = some m ↔ ws.registry.get? id = some m
  callback : ∀ id, ws'.registry.notifier? id = some m ↔ ws.registry.notifier? id = some m
  told : ws'.calls.filter (·.session == m) = ws.calls.filter (·.session == m)

theorem Spares.refl (m : SessionNumber) (ws : Workspace) : ws.Spares m ws :=
  ⟨rfl, fun _ => .rfl, fun _ => .rfl, rfl⟩

theorem Spares.trans (h : ws.Spares m ws') (h' : ws'.Spares m ws'') : ws.Spares m ws'' :=
  ⟨h'.session.trans h.session, fun id => (h'.registered id).trans (h.registered id),
    fun id => (h'.callback id).trans (h.callback id), h'.told.trans h.told⟩

/-- Where only sessions change, another session is spared. -/
theorem spares_of_sessions (other : n ≠ m) {t : Session}
    (sessions : ws'.sessions = ws.sessions.set n t) (registry : ws'.registry = ws.registry)
    (calls : ws'.calls = ws.calls) : ws.Spares m ws' := by
  refine ⟨?_, ?_, ?_, ?_⟩
  · rw [session?, sessions]
    exact List.getElem?_set_ne other
  · rw [registry]
    exact fun _ => .rfl
  · rw [registry]
    exact fun _ => .rfl
  · rw [calls]

theorem spares_setSession (other : n ≠ m) (t : Session) : ws.Spares m (ws.setSession n t) :=
  spares_of_sessions other rfl rfl rfl

theorem spares_request (other : n ≠ m) (s : Session) : ws.Spares m (ws.request n s).2 :=
  spares_of_sessions other (sessions_request ws n s) (registry_request ws n s)
    (calls_request ws n s)

/-- What one session is told is nothing that another is told. -/
theorem Spares.tell (h : ws.Spares m ws') {call : Call} (other : call.session ≠ m) :
    ws.Spares m { ws' with calls := ws'.calls ++ [call] } := by
  refine ⟨h.session, h.registered, h.callback, ?_⟩
  have hnot : (call.session == m) = false := by simpa using other
  rw [List.filter_append, List.filter_cons_of_neg (by simp [hnot]), List.filter_nil,
    List.append_nil]
  exact h.told

theorem spares_update (other : n ≠ m) {s : Session} {next : Snapshot}
    (h : ws.update n s next = .ok ws') : ws.Spares m ws' := by
  unfold update at h
  split at h
  · cases h
  · next t _ =>
      have hset := ws.spares_setSession other t
      cases h
      split
      · exact hset.tell other
      · exact hset

theorem Attentive.spares_notify (attentive : ws.Attentive) {event : DiagnosticsEvent}
    (other : ws.registry.get? event.sessionId ≠ some m) : ws.Spares m (ws.notify event).2 := by
  cases hreached : ws.addressee? event with
  | none =>
      rw [notify_of_none hreached]
      exact .refl m ws
  | some found =>
      obtain ⟨n, s⟩ := found
      have hget := (open?_eq_some (addressee?_eq_some_iff.mp hreached).1).1
      have hne : n ≠ m := by
        intro heq
        rw [heq] at hget
        exact other hget
      have hrequest := ws.spares_request hne s
      rw [attentive.notify_of_some hreached]
      split
      · have htell : ws.Spares m { (ws.request n s).2 with
            calls := (ws.request n s).2.calls ++ [.diagnostics n event] } := hrequest.tell hne
        rwa [calls_request] at htell
      · exact hrequest

/-- Removing an identifier takes away the session that is registered under it, and no other. -/
theorem spares_unregister {id : Uuid} (other : ws.registry.get? id ≠ some m)
    (callback : ws.registry.notifier? id ≠ some m) : ws.Spares m (ws.unregister id).2 := by
  refine ⟨rfl, fun id' => ?_, fun id' => ?_, rfl⟩
  · show (ws.registry.remove id).2.get? id' = some m ↔ _
    rw [SessionRegistry.get?_remove]
    by_cases heq : id' = id
    · rw [if_pos heq, heq]
      exact iff_of_false nofun other
    · rw [if_neg heq]
  · show (ws.registry.remove id).2.notifier? id' = some m ↔ _
    rw [SessionRegistry.notifier?_remove]
    by_cases heq : id' = id
    · rw [if_pos heq, heq]
      exact iff_of_false nofun callback
    · rw [if_neg heq]

end Workspace

namespace Host

variable {h t : Host} {m : SessionNumber}

/-! ## What a host leaves alone -/

/-- The events in the mailbox that wait for the session with number `m`. -/
def waitingFor (h : Host) (m : SessionNumber) : List DiagnosticsEvent :=
  h.mailbox.filter fun event => h.workspace.registry.get? event.sessionId == some m

/-- A session is as it was in the workspace, and the same events wait for it. -/
structure Spares (m : SessionNumber) (h t : Host) : Prop where
  workspace : h.workspace.Spares m t.workspace
  waiting : t.waitingFor m = h.waitingFor m

theorem Spares.refl (m : SessionNumber) (h : Host) : h.Spares m h := ⟨.refl m _, rfl⟩

theorem Spares.trans {u : Host} (ht : h.Spares m t) (hu : t.Spares m u) : h.Spares m u :=
  ⟨ht.workspace.trans hu.workspace, hu.waiting.trans ht.waiting⟩

/-- Whatever is done to a mailbox, the events for a session wait as long as it is registered. -/
theorem spares_of_mailbox (spares : h.workspace.Spares m t.workspace)
    (mailbox : t.mailbox.filter (fun e => h.workspace.registry.get? e.sessionId == some m)
      = h.waitingFor m) : h.Spares m t := by
  refine ⟨spares, ?_⟩
  rw [← mailbox]
  refine List.filter_congr fun event _ => ?_
  rw [Bool.eq_iff_iff, beq_iff_eq, beq_iff_eq]
  exact spares.registered event.sessionId

theorem spares_of_workspace (spares : h.workspace.Spares m t.workspace)
    (mailbox : t.mailbox = h.mailbox) : h.Spares m t :=
  spares_of_mailbox spares (by rw [mailbox]; rfl)

theorem spares_onSession {n : SessionNumber} (change : Session → Workspace)
    (hchange : ∀ s, h.workspace.session? n = some s → h.workspace.Spares m (change s)) :
    h.Spares m (h.onSession n change) := by
  unfold onSession
  split
  · exact .refl m h
  · next s at_n => exact spares_of_workspace (hchange s at_n) rfl

/-! ## What concerns a session -/

/-- Whether an action concerns the session with number `m`: it opens the session, or it names the
session by number, or by an identifier that the session is registered under. Shutting down concerns
every session. -/
def Concerns (h : Host) (m : SessionNumber) : Action → Prop
  | .openSession _ _ _ => h.workspace.sessions.length = m
  | .close id | .update id _ | .reprocess id => h.workspace.registry.get? id = some m
  | .notify event | .send event => h.workspace.registry.get? event.sessionId = some m
  | .listen => ∃ event, h.mailbox.head? = some event ∧
      h.workspace.registry.get? event.sessionId = some m
  | .updateSession n _ | .reprocessSession n | .request n | .cancel n | .advance n _ _ _ | .drop n _
  | .abandon n _ => n = m
  | .shutdown => True
  | .share _ => False

/-- The session that is open under an identifier is another one, if the identifier is not that of
the session. -/
theorem ne_of_open? {id : Uuid} {n : SessionNumber} {s : Session}
    (isOpen : h.workspace.open? id = some (n, s))
    (other : h.workspace.registry.get? id ≠ some m) : n ≠ m := by
  intro heq
  rw [heq] at isOpen
  exact other (Workspace.open?_eq_some isOpen).1

theorem spares_open? (attentive : h.workspace.Attentive) (w : World) (request : OpenRequest)
    (ids : List Uuid) (there : m < h.workspace.sessions.length) :
    h.Spares m (h.open? w request ids).2 := by
  rcases opens_open? w h request ids with ⟨-, hnone⟩ | ⟨n, s, -, hopens⟩
  · rw [hnone]
    exact spares_of_workspace ⟨rfl, fun _ => .rfl, fun _ => .rfl, rfl⟩ rfl
  · have hne : n ≠ m := hopens.number ▸ (Nat.ne_of_lt there).symm
    have hfree : (h.workspace.registry.afterNames ids).contains s.id = false := hopens.free
    have hsilent := attentive.notifier?_of_free hopens.free
    refine spares_of_workspace ⟨?_, fun id => ?_, fun id => ?_, by rw [hopens.calls]⟩
      hopens.mailbox
    · rw [Workspace.session?, hopens.sessions]
      exact List.getElem?_append_left there
    · rw [hopens.registry, SessionRegistry.get?_insert hfree]
      by_cases heq : id = s.id
      · -- the identifier of the new session was free
        rw [if_pos heq, heq, SessionRegistry.contains_eq_false_iff.mp hopens.free]
        exact iff_of_false (fun hn => hne (Option.some.inj hn)) (Option.some_ne_none m).symm
      · rw [if_neg heq]
        exact .rfl
    · rw [hopens.registry, SessionRegistry.notifier?_insert hfree hsilent]
      by_cases heq : id = s.id
      · rw [if_pos heq, heq, hsilent]
        cases request.wantsDiagnostics
        · exact .rfl
        · exact iff_of_false (fun hn => hne (Option.some.inj hn)) (Option.some_ne_none m).symm
      · rw [if_neg heq]
        exact .rfl

theorem spares_close (attentive : h.workspace.Attentive) {id : Uuid}
    (other : h.workspace.registry.get? id ≠ some m) : h.Spares m (h.close id).2 := by
  have hcallback : h.workspace.registry.notifier? id ≠ some m :=
    fun hnotifier => other (attentive.notifiers id m hnotifier)
  refine spares_of_workspace ?_ rfl
  cases hopen : h.workspace.open? id with
  | none =>
      have hclose : (h.close id).2.workspace = (h.workspace.unregister id).2 := by
        simp only [close, hopen]
      rw [hclose]
      exact Workspace.spares_unregister other hcallback
  | some found =>
      obtain ⟨n, s⟩ := found
      have hset := h.workspace.spares_setSession (ne_of_open? hopen other) s.close
      rw [close_eq hopen]
      exact hset.trans (Workspace.spares_unregister other hcallback)

/-- **What does not concern a session leaves it alone.** -/
theorem spares_perform (attentive : h.workspace.Attentive)
    (there : m < h.workspace.sessions.length) {a : Action} (other : ¬ h.Concerns m a) :
    h.Spares m (h.perform a) := by
  cases a with
  | openSession w request ids => exact spares_open? attentive w request ids there
  | close id => exact spares_close attentive other
  | shutdown => exact absurd trivial other
  | update id next =>
      simp only [perform, update]
      split
      · exact .refl m h
      · next n s hopen =>
          cases hupdate : h.workspace.update n s next with
          | ok ws =>
              exact spares_of_workspace
                (Workspace.spares_update (ne_of_open? hopen other) hupdate) rfl
          | error e => cases e <;> exact .refl m h
  | reprocess id =>
      simp only [perform]
      split
      · exact .refl m h
      · next n s hopen =>
          exact spares_of_workspace
            (h.workspace.spares_setSession (ne_of_open? hopen other) _) rfl
  | updateSession n next =>
      refine spares_onSession _ fun s _ => ?_
      cases hupdate : h.workspace.update n s next with
      | ok ws => exact Workspace.spares_update other hupdate
      | error e => exact .refl m _
  | request n => exact spares_onSession _ fun s _ => Workspace.spares_request other s
  | reprocessSession n | cancel n | drop n i | abandon n i =>
      exact spares_onSession _ fun s _ => Workspace.spares_setSession other _
  | advance n i w others =>
      exact spares_onSession _ fun s _ => Workspace.spares_of_sessions other rfl rfl rfl
  | notify event => exact spares_of_workspace (attentive.spares_notify other) rfl
  | send event =>
      simp only [perform, send]
      split
      · refine spares_of_mailbox (.refl m _) ?_
        have hnot : (h.workspace.registry.get? event.sessionId == some m) = false :=
          beq_eq_false_iff_ne.mpr other
        rw [List.filter_append, List.filter_cons_of_neg (by simp [hnot]), List.filter_nil,
          List.append_nil]
        rfl
      · exact .refl m h
  | listen =>
      simp only [perform, listen]
      split
      · exact .refl m h
      · next event rest hmailbox =>
          have hother : h.workspace.registry.get? event.sessionId ≠ some m :=
            fun hget => other ⟨event, by rw [hmailbox]; rfl, hget⟩
          refine spares_of_mailbox (attentive.spares_notify hother) ?_
          have hnot : (h.workspace.registry.get? event.sessionId == some m) = false :=
            beq_eq_false_iff_ne.mpr hother
          rw [waitingFor, hmailbox, List.filter_cons_of_neg (by simp [hnot])]
          rfl
  | share cache => exact spares_of_workspace ⟨rfl, fun _ => .rfl, fun _ => .rfl, rfl⟩ rfl

/-- Apart from shutting down, an action concerns one session at most. -/
theorem eq_of_concerns {n : SessionNumber} {a : Action} (single : a ≠ .shutdown)
    (hn : h.Concerns n a) (hm : h.Concerns m a) : n = m := by
  cases a with
  | shutdown => exact absurd rfl single
  | share => cases hn
  | openSession | updateSession | reprocessSession | request | cancel | advance | drop | abandon =>
      exact hn.symm.trans hm
  | close | update | reprocess | notify | send => exact Option.some.inj (hn.symm.trans hm)
  | listen =>
      obtain ⟨event, hhead, hn⟩ := hn
      obtain ⟨event', hhead', hm⟩ := hm
      obtain rfl := Option.some.inj (hhead.symm.trans hhead')
      exact Option.some.inj (hn.symm.trans hm)

end Host

namespace LiveHost

variable {S : Setting} {L M : LiveHost} {m : SessionNumber}

/-! ## What happens beside a session -/

/-- What can happen to a live host without concerning the session with number `m`. -/
inductive StepBeside (S : Setting) (m : SessionNumber) (L : LiveHost) : LiveHost → Prop where
  | act (a : Host.Action) (calm : a.isCalm = true) (other : ¬ L.host.Concerns m a) :
      StepBeside S m L { L with host := L.host.perform a }
  /-- A pass of another session goes on. -/
  | advance (n : SessionNumber) (i : Nat) (w : World) (hw : S.worlds w)
      (asks : ∀ f ∈ (L.advance n i w).flight, S.asked f.location) (other : n ≠ m) :
      StepBeside S m L (L.advance n i w)
  /-- A client uses the cache, and no session has to do with it. -/
  | client (M : LiveHost) (hstep : L.Step S M) (c : Cache) (host : M.host = (L.setCache c).host) :
      StepBeside S m L M

theorem StepBeside.step (h : L.StepBeside S m M) : L.Step S M := by
  cases h with
  | act a calm => exact .act a calm
  | advance n i w hw asks => exact .advance n i w hw asks
  | client M hstep => exact hstep

/-- Whatever happens to a live host is an action that concerns the session, or happens beside it. -/
theorem Step.beside_or_concerns (h : L.Step S M) (m : SessionNumber) :
    L.StepBeside S m M ∨ ∃ a, L.host.Concerns m a ∧ M.host = L.host.perform a := by
  cases h with
  | act a calm =>
      by_cases hm : L.host.Concerns m a
      · exact .inr ⟨a, hm, rfl⟩
      · exact .inl (.act a calm hm)
  | advance n i w hw asks =>
      by_cases hm : n = m
      · exact .inr ⟨.advance n i w (L.beside n i), hm, rfl⟩
      · exact .inl (.advance n i w hw asks hm)
  | call location asks => exact .inl (.client _ (.call location asks) L.cache rfl)
  | step i f w at_i hw => exact .inl (.client _ (.step i f w at_i hw) _ rfl)
  | leave i => exact .inl (.client _ (.leave i) L.cache rfl)
  | document documentation => exact .inl (.client _ (.document documentation) _ rfl)

/-- The host of a reachable live host is reachable: using the cache is an action of its own. -/
theorem Reachable.host {config : Config} {overrides : List (String × String)}
    (h : L.Reachable S config overrides) : L.host.Reachable := by
  obtain ⟨w, -, -, -, hsteps⟩ := h
  induction hsteps with
  | refl => exact ⟨w, config, overrides, [], rfl⟩
  | @tail L M _ hstep ih =>
      have hperform (a : Host.Action) : (L.host.perform a).Reachable := by
        obtain ⟨w, config, overrides, actions, hrun⟩ := ih
        refine ⟨w, config, overrides, actions ++ [a], ?_⟩
        rw [Host.run, List.foldl_append, hrun]
        rfl
      cases hstep with
      | act a => exact hperform a
      | advance n i w => exact hperform (.advance n i w (L.beside n i))
      | call | leave => exact ih
      | step i f w => exact hperform (.share _)
      | document documentation => exact hperform (.share _)

/-- A session, the default set and the entries of the cache are as they were. -/
structure Untouched (m : SessionNumber) (L M : LiveHost) : Prop where
  host : L.host.Spares m M.host
  defaults : M.host.workspace.defaults = L.host.workspace.defaults
  entries : L.cache.Keeps M.cache

theorem untouched_of_stepBeside {config : Config} {overrides : List (String × String)}
    (reachable : L.Reachable S config overrides) (there : m < L.host.workspace.sessions.length)
    (h : L.StepBeside S m M) : Untouched m L M := by
  have attentive := reachable.host.attentive
  have hentries := (reachable.kept.step h.step).2
  cases h with
  | act a calm other =>
      exact ⟨Host.spares_perform attentive there other, (L.holdsLess_act calm).defaults, hentries⟩
  | advance n i w hw asks other =>
      refine ⟨Host.spares_perform attentive there (a := .advance n i w _) other, ?_, hentries⟩
      simp only [LiveHost.advance, Host.perform, Host.onSession]
      split <;> rfl
  | client M hstep c host =>
      have hspares : L.host.Spares m (L.setCache c).host :=
        Host.spares_of_workspace ⟨rfl, fun _ => .rfl, fun _ => .rfl, rfl⟩ rfl
      exact ⟨host ▸ hspares, by rw [host]; rfl, hentries⟩

theorem Untouched.trans {N : LiveHost} (h : Untouched m L M) (h' : Untouched m M N) :
    Untouched m L N :=
  ⟨h.host.trans h'.host, h'.defaults.trans h.defaults, h.entries.trans h'.entries⟩

/-- A session that is untouched is still there. -/
theorem Untouched.there (h : Untouched m L M) (there : m < L.host.workspace.sessions.length) :
    m < M.host.workspace.sessions.length := by
  have hsession : M.host.workspace.sessions[m]? = L.host.workspace.sessions[m]? :=
    h.host.workspace.session
  rw [List.getElem?_eq_getElem there] at hsession
  exact (List.getElem?_eq_some_iff.mp hsession).1

theorem untouched_of_stepsBeside {config : Config} {overrides : List (String × String)}
    (reachable : L.Reachable S config overrides) (there : m < L.host.workspace.sessions.length)
    (h : Relation.ReflTransGen (StepBeside S m) L M) :
    M.Reachable S config overrides ∧ Untouched m L M := by
  induction h with
  | refl => exact ⟨reachable, .refl m _, rfl, .refl _⟩
  | tail _ hlast ih =>
      obtain ⟨hreachable, huntouched⟩ := ih
      exact ⟨hreachable.step hlast.step, huntouched.trans
        (untouched_of_stepBeside hreachable (huntouched.there there) hlast)⟩

/-- **Sessions are isolated.** In any live host that may come about, an action concerns one session
at most, unless it shuts the host down. Whatever happens is an action that concerns a given session
or happens beside it; and however much happens beside a session, also while its own passes are
suspended midway, the session is untouched, and so are the default set and the entries of the
cache. -/
theorem sessions_isolated {config : Config} {overrides : List (String × String)}
    (reachable : L.Reachable S config overrides) (there : m < L.host.workspace.sessions.length) :
    (∀ n a, a ≠ .shutdown → L.host.Concerns n a → L.host.Concerns m a → n = m) ∧
      (∀ M, L.Step S M →
        L.StepBeside S m M ∨ ∃ a, L.host.Concerns m a ∧ M.host = L.host.perform a) ∧
      ∀ M, Relation.ReflTransGen (StepBeside S m) L M → Untouched m L M :=
  ⟨fun _ _ single hn hm => Host.eq_of_concerns single hn hm,
    fun _ hstep => hstep.beside_or_concerns m,
    fun _ hsteps => (untouched_of_stepsBeside reachable there hsteps).2⟩

/-- A pass waits for the cache, and another session has been opened beside it. -/
def besideWork : LiveHost :=
  let L := atWork default {} "#r \"/lib.dll\"" 5
  let opening : Host.Action := .openSession default { wantsDiagnostics := true } [Host.secondId]
  { L with host := L.host.perform opening }

/-- The second session is changed and closed. -/
def secondEnds : List Host.Action :=
  [.update Host.secondId ⟨1, 0, "changed", {}⟩, .close Host.secondId]

/-- While one of its passes is suspended and another one waits, the first session is untouched by
all that happens to the second one, which does change. -/
theorem besideWork_untouched :
    (besideWork.host.workspace.session? 0).map (·.passes.map (·.fetch?.isSome))
        = some [true, false] ∧
      Untouched 0 besideWork { besideWork with host := besideWork.host.run secondEnds } ∧
      ((besideWork.host.run secondEnds).workspace.session? 1).map
        (fun s => (s.snapshot.text, s.closed)) = some ("changed", true) := by
  have hfacts : (besideWork.host.workspace.session? 0).map (·.passes.map (·.fetch?.isSome))
        = some [true, false] ∧
      0 < besideWork.host.workspace.sessions.length ∧
      besideWork.host.workspace.registry.get? Host.secondId ≠ some 0 ∧
      (besideWork.host.run (secondEnds.take 1)).workspace.registry.get? Host.secondId ≠ some 0 ∧
      ((besideWork.host.run secondEnds).workspace.session? 1).map
        (fun s => (s.snapshot.text, s.closed)) = some ("changed", true) := by
    decide +kernel
  obtain ⟨hsuspended, hthere, hupdate, hclose, hchanged⟩ := hfacts
  have hreachable := (reachable_atWork default {} "#r \"/lib.dll\"" 5).step
    (.act (.openSession default { wantsDiagnostics := true } [Host.secondId]) rfl)
  have hsteps : Relation.ReflTransGen
      (StepBeside (.only default ({} : Config).searchDirectories fun _ => True) 0) besideWork
      { besideWork with host := besideWork.host.run secondEnds } :=
    .head (.act (.update Host.secondId ⟨1, 0, "changed", {}⟩) rfl hupdate)
      (.single (.act (.close Host.secondId) rfl hclose))
  exact ⟨hsuspended, (sessions_isolated hreachable hthere).2.2 _ hsteps, hchanged⟩

end LiveHost

end ScriptSessions
