import ScriptSessions.Proofs.Host.Delivery
import ScriptSessions.Proofs.Session.Updates

set_option autoImplicit false

/-! # The snapshots of a session form a chain

Clients may submit whatever snapshots they like, with any versions, and call a session by its
identifier or directly. `Host.submission?` is the snapshot that an action submits to the session
with a given number, and `Host.applied?` is that snapshot if the session accepts it. A submission
that is refused leaves the whole host as it was (`Host.perform_of_refused`), and an action that
submits nothing leaves the snapshot of the session alone, and says nothing of its text
(`Host.rests_perform`).

So what one action does to the snapshots of a session is told by `Host.applied?` alone
(`Host.advances_perform`), and what a run does by the list of the snapshots that were applied in it
(`Host.advances_run`). Each of them follows on the one before (`Snapshot.Precedes`), since this is
what a session looks at before it accepts one.
-/

namespace ScriptSessions

open Reference

namespace Session

theorem sameText_advancePass (w : World) (others : List Fetch) (c : Cache) (s : Session) (i : Nat) :
    s.SameText (s.advancePass w others c i).1 := by
  have hstep (t : Session) (d : Cache) : t.SameText (t.stepPass w others d i).1 :=
    t.sameText_perform (a := .step i w others d) rfl
  unfold advancePass
  dsimp only
  split
  · exact (hstep s c).trans (hstep (s.stepPass w others c i).1 (s.stepPass w others c i).2)
  · exact hstep s c

end Session

/-- The text that the callback of the session with number `n` is told. -/
def Call.text? (n : SessionNumber) : Call → Option String
  | .textChanged m text => if m = n then some text else none
  | .diagnostics _ _ => none

namespace Workspace

variable {ws ws' ws'' : Workspace} {m n : SessionNumber} {s t : Session}

/-! ## What leaves the text of a session alone -/

/-- What the callback of the session with number `n` has been told of its text, in order. -/
def texts (ws : Workspace) (n : SessionNumber) : List String := ws.calls.filterMap (·.text? n)

/-- A session has the snapshot that it had, and nothing has been said of its text. -/
structure Rests (n : SessionNumber) (ws ws' : Workspace) : Prop where
  session : ∀ s, ws.session? n = some s → ∃ t, ws'.session? n = some t ∧ s.SameText t
  texts : ws'.texts n = ws.texts n

theorem rests_of_session?_eq (session : ws'.session? n = ws.session? n)
    (calls : ws'.calls = ws.calls) : ws.Rests n ws' := by
  refine ⟨fun s at_n => ⟨s, session.trans at_n, rfl, rfl⟩, ?_⟩
  rw [Workspace.texts, calls]
  rfl

theorem Rests.refl (n : SessionNumber) (ws : Workspace) : ws.Rests n ws :=
  rests_of_session?_eq rfl rfl

theorem Rests.trans (h : ws.Rests n ws') (h' : ws'.Rests n ws'') : ws.Rests n ws'' := by
  refine ⟨fun s at_n => ?_, h'.texts.trans h.texts⟩
  obtain ⟨t, at_t, hst⟩ := h.session s at_n
  obtain ⟨u, at_u, htu⟩ := h'.session t at_t
  exact ⟨u, at_u, hst.trans htu⟩

/-- Where one session changes but for its text, the texts of all sessions are left alone. -/
theorem rests_of_sessions (at_m : ws.session? m = some s) (same : s.SameText t)
    (sessions : ws'.sessions = ws.sessions.set m t) (calls : ws'.calls = ws.calls) :
    ws.Rests n ws' := by
  refine ⟨fun u at_n => ?_, by rw [Workspace.texts, calls]; rfl⟩
  rw [session?, sessions]
  by_cases hm : m = n
  · subst hm
    rw [at_m] at at_n
    cases at_n
    exact ⟨t, List.getElem?_set_self (List.getElem?_eq_some_iff.mp at_m).1, same⟩
  · exact ⟨u, (List.getElem?_set_ne hm).trans at_n, rfl, rfl⟩

theorem rests_setSession (at_m : ws.session? m = some s) (same : s.SameText t) :
    ws.Rests n (ws.setSession m t) :=
  rests_of_sessions at_m same rfl rfl

theorem rests_request (at_m : ws.session? m = some s) : ws.Rests n (ws.request m s).2 :=
  rests_of_sessions at_m (s.sameText_perform (a := .request) rfl) (sessions_request ws m s)
    (calls_request ws m s)

/-- News of diagnostics say nothing of texts. -/
theorem rests_notify (event : DiagnosticsEvent) : ws.Rests n (ws.notify event).2 := by
  unfold notify
  split
  · exact .refl n ws
  · next m s hopen =>
      have hrequest : ws.Rests n (ws.request m s).2 := rests_request (open?_eq_some hopen).2
      split
      · exact .refl n ws
      · split
        · next ws' hws => rw [hws] at hrequest; exact hrequest
        · next ws' _ hws =>
            rw [hws] at hrequest
            split
            · exact hrequest
            · refine ⟨hrequest.session, Eq.trans ?_ hrequest.texts⟩
              simp [Workspace.texts, Call.text?]

/-- What another session is told of its text does not count. -/
theorem rests_update (other : m ≠ n) {next : Snapshot} (h : ws.update m s next = .ok ws') :
    ws.Rests n ws' := by
  unfold update at h
  split at h
  · cases h
  · next t _ =>
      have hset : ws.Rests n (ws.setSession m t) :=
        rests_of_session?_eq (session?_setSession_ne other t) rfl
      cases h
      split
      · refine ⟨hset.session, ?_⟩
        simp [Workspace.texts, Call.text?, setSession, other]
      · exact hset

end Workspace

namespace Host

variable {h : Host} {n : SessionNumber} {s : Session} {a : Action} {next : Snapshot}

/-! ## Submissions -/

/-- The snapshot that an action submits to the session with number `n`, if it submits one. -/
def submission? (h : Host) (n : SessionNumber) : Action → Option Snapshot
  | .update id next => if (h.workspace.open? id).any (·.1 == n) then some next else none
  | .updateSession m next => if m = n then some next else none
  | _ => none

/-- The snapshot that an action applies to the session with number `n`, if it applies one. -/
def applied? (h : Host) (n : SessionNumber) (a : Action) : Option Snapshot :=
  (h.submission? n a).filter fun next => (h.workspace.session? n).any (·.accepts next)

/-- The snapshots that a run applies to the session with number `n`, in order. -/
def applied (h : Host) (n : SessionNumber) : List Action → List Snapshot
  | [] => []
  | a :: rest => (h.applied? n a).toList ++ (h.perform a).applied n rest

/-- A submission is an update of the session, by whichever way it comes. -/
theorem perform_of_submission (at_n : h.workspace.session? n = some s)
    (submitted : h.submission? n a = some next) :
    h.perform a
      = { h with workspace := (h.workspace.update n s next).toOption.getD h.workspace } := by
  cases a with
  | update id next' =>
      simp only [submission?] at submitted
      split at submitted
      · next hreached =>
          cases submitted
          obtain ⟨⟨m, t⟩, hopen, hm⟩ := (Option.any_eq_true _ _).mp hreached
          -- the identifier leads to this very session
          obtain rfl : m = n := by simpa using hm
          have at_m := (Workspace.open?_eq_some hopen).2
          rw [at_n] at at_m
          cases at_m
          simp only [perform, update, hopen]
          cases h.workspace.update m s next with
          | ok ws => rfl
          | error e => cases e <;> rfl
      · cases submitted
  | updateSession m next' =>
      simp only [submission?] at submitted
      split at submitted
      · next hm =>
          cases submitted
          subst hm
          simp only [perform, onSession, at_n]
      · cases submitted
  | openSession | close | shutdown | reprocess | reprocessSession | request | cancel | notify | send
  | listen | advance | drop | abandon | share => cases submitted

/-- **A refused update leaves no trace**: everything about the host is as it was. -/
theorem perform_of_refused (at_n : h.workspace.session? n = some s)
    (submitted : h.submission? n a = some next) (refused : s.accepts next = false) :
    h.perform a = h := by
  rw [perform_of_submission at_n submitted, Workspace.update]
  cases hupdate : s.update next with
  | error e => rfl
  | ok t => simp [Session.accepts, hupdate, Except.toOption] at refused

/-- An update that is accepted is told to the callback, if there is one. -/
theorem perform_of_accepted (at_n : h.workspace.session? n = some s)
    (submitted : h.submission? n a = some next) (accepted : s.accepts next = true) :
    (h.perform a).workspace.session? n = some { s with snapshot := next } ∧
      (h.perform a).workspace.texts n
        = h.workspace.texts n ++ if s.announcesText then [next.text] else [] := by
  obtain ⟨hupdate, -⟩ := Session.update_of_accepts accepted
  have hsession := Workspace.session?_setSession_self at_n { s with snapshot := next }
  have htexts : (h.workspace.setSession n { s with snapshot := next }).texts n
      = h.workspace.texts n := rfl
  rw [perform_of_submission at_n submitted, Workspace.update, hupdate]
  simp only [Except.toOption, Option.getD_some]
  by_cases wants : s.announcesText = true
  · rw [if_pos wants, if_pos wants]
    exact ⟨hsession, by simp [Workspace.texts, Call.text?, Workspace.setSession]⟩
  · rw [if_neg wants, if_neg wants]
    exact ⟨hsession, by rw [htexts, List.append_nil]⟩

/-! ## Actions that submit nothing -/

theorem rests_close (h : Host) (id : Uuid) : h.workspace.Rests n (h.close id).2.workspace := by
  cases hopen : h.workspace.open? id with
  | none =>
      have hclose : (h.close id).2.workspace = (h.workspace.unregister id).2 := by
        simp only [close, hopen]
      rw [hclose]
      exact Workspace.rests_of_session?_eq rfl rfl
  | some found =>
      obtain ⟨m, t⟩ := found
      rw [close_eq hopen]
      exact Workspace.rests_of_sessions (Workspace.open?_eq_some hopen).2
        (t.sameText_perform (a := .close) rfl) rfl rfl

theorem rests_open? (w : World) (h : Host) (request : OpenRequest) (ids : List Uuid) :
    h.workspace.Rests n (h.open? w request ids).2.workspace := by
  rcases opens_open? w h request ids with ⟨-, hnone⟩ | ⟨m, t, -, hopens⟩
  · rw [hnone]
    exact Workspace.rests_of_session?_eq rfl rfl
  · refine ⟨fun s at_n => ⟨s, ?_, rfl, rfl⟩, by rw [Workspace.texts, hopens.calls]; rfl⟩
    -- the new session comes behind the others
    rw [Workspace.session?, hopens.sessions]
    exact (List.getElem?_append_left (List.getElem?_eq_some_iff.mp at_n).1).trans at_n

theorem rests_onSession {m : SessionNumber} (change : Session → Workspace)
    (hchange : ∀ t, h.workspace.session? m = some t → h.workspace.Rests n (change t)) :
    h.workspace.Rests n (h.onSession m change).workspace := by
  unfold onSession
  split
  · exact .refl n h.workspace
  · next t at_m => exact hchange t at_m

/-- An action that submits nothing to a session leaves its snapshot alone, and says nothing of its
text. -/
theorem rests_perform (h : Host) (a : Action) (silent : h.submission? n a = none) :
    h.workspace.Rests n (h.perform a).workspace := by
  cases a with
  | openSession w request ids => exact rests_open? w h request ids
  | close id => exact h.rests_close id
  | shutdown =>
      exact closeAll_induction (P := fun t => h.workspace.Rests n t.workspace)
        (fun t id ht => ht.trans (t.rests_close id)) (.refl n _) h.workspace.registry.ids
  | update id next =>
      simp only [perform, update]
      split
      · exact .refl n h.workspace
      · next m t hopen =>
          -- the identifier is that of another session
          have hother : m ≠ n := by
            rintro rfl
            simp [submission?, hopen] at silent
          cases hupdate : h.workspace.update m t next with
          | ok ws => exact Workspace.rests_update hother hupdate
          | error e => cases e <;> exact .refl n h.workspace
  | reprocess id =>
      simp only [perform]
      split
      · exact .refl n h.workspace
      · next m t hopen =>
          exact Workspace.rests_setSession (Workspace.open?_eq_some hopen).2
            (t.sameText_perform (a := .requestNow) rfl)
  | updateSession m next =>
      have hother : m ≠ n := by
        rintro rfl
        simp [submission?] at silent
      refine rests_onSession _ fun t _ => ?_
      cases hupdate : h.workspace.update m t next with
      | ok ws => exact Workspace.rests_update hother hupdate
      | error e => exact .refl n h.workspace
  | reprocessSession m =>
      exact rests_onSession _ fun t at_m =>
        Workspace.rests_setSession at_m (t.sameText_perform (a := .requestNow) rfl)
  | request m => exact rests_onSession _ fun t at_m => Workspace.rests_request at_m
  | cancel m =>
      exact rests_onSession _ fun t at_m =>
        Workspace.rests_setSession at_m (t.sameText_perform (a := .cancel) rfl)
  | drop m i =>
      exact rests_onSession _ fun t at_m =>
        Workspace.rests_setSession at_m (t.sameText_perform (a := .drop i) rfl)
  | abandon m i =>
      exact rests_onSession _ fun t at_m =>
        Workspace.rests_setSession at_m (t.sameText_perform (a := .abandon i) rfl)
  | advance m i w others =>
      exact rests_onSession _ fun t at_m =>
        Workspace.rests_of_sessions at_m (t.sameText_advancePass w others _ i) rfl rfl
  | notify event => exact Workspace.rests_notify event
  | send event =>
      simp only [perform, send]
      split <;> exact .refl n h.workspace
  | listen =>
      simp only [perform, listen]
      split
      · exact .refl n h.workspace
      · exact Workspace.rests_notify _
  | share cache => exact Workspace.rests_of_session?_eq rfl rfl

/-! ## Applied snapshots -/

/-- What has become of the session with number `n` between two hosts: it was `s` and is `t`, and the
given snapshots have been applied to it. -/
structure Advances (n : SessionNumber) (h : Host) (s : Session) (applied : List Snapshot) (k : Host)
    (t : Session) : Prop where
  session : k.workspace.session? n = some t
  announcesText : t.announcesText = s.announcesText
  /-- Each snapshot follows on the one before, and the last one is the current one. -/
  chain : (s.snapshot :: applied).IsChain Snapshot.Precedes
  last : (s.snapshot :: applied).getLast? = some t.snapshot
  /-- The callback has been told of each of them, if there is one. -/
  texts : k.workspace.texts n = h.workspace.texts n ++
    if s.announcesText then applied.map (·.text) else []

theorem Advances.refl (at_n : h.workspace.session? n = some s) : Advances n h s [] h s := by
  refine ⟨at_n, rfl, List.isChain_singleton _, rfl, ?_⟩
  split <;> exact (List.append_nil _).symm

theorem Advances.trans {k l : Host} {t u : Session} {front back : List Snapshot}
    (hst : Advances n h s front k t) (htu : Advances n k t back l u) :
    Advances n h s (front ++ back) l u := by
  obtain ⟨hfirst, hback⟩ := List.isChain_cons.mp htu.chain
  refine ⟨htu.session, htu.announcesText.trans hst.announcesText, ?_, ?_, ?_⟩
  · -- the second chain goes on from the snapshot with which the first one ends
    rw [← List.cons_append, List.isChain_append]
    refine ⟨hst.chain, hback, fun x hx y hy => ?_⟩
    rw [hst.last] at hx
    cases hx
    exact hfirst y hy
  · have hlast := htu.last
    rw [List.getLast?_cons] at hlast
    rw [← List.cons_append, List.getLast?_append, hst.last, ← hlast]
    cases back.getLast? <;> rfl
  · rw [htu.texts, hst.texts, hst.announcesText, List.append_assoc]
    cases s.announcesText <;> simp

/-- **One action** applies one snapshot to a session, or none. -/
theorem advances_perform (at_n : h.workspace.session? n = some s) (a : Action) :
    ∃ t, Advances n h s (h.applied? n a).toList (h.perform a) t := by
  cases submitted : h.submission? n a with
  | none =>
      have hnone : h.applied? n a = none := by rw [applied?, submitted]; rfl
      obtain ⟨hsession, htexts⟩ := h.rests_perform a submitted
      obtain ⟨t, at_t, same⟩ := hsession s at_n
      rw [hnone]
      refine ⟨t, at_t, same.announcesText, List.isChain_singleton _, ?_, ?_⟩
      · rw [same.snapshot]
        rfl
      · rw [htexts]
        split <;> exact (List.append_nil _).symm
  | some next =>
      cases accepted : s.accepts next with
      | false =>
          have hnone : h.applied? n a = none := by simp [applied?, submitted, at_n, accepted]
          rw [hnone, perform_of_refused at_n submitted accepted]
          exact ⟨s, .refl at_n⟩
      | true =>
          have hsome : h.applied? n a = some next := by simp [applied?, submitted, at_n, accepted]
          obtain ⟨at_t, htexts⟩ := perform_of_accepted at_n submitted accepted
          rw [hsome]
          refine ⟨_, at_t, rfl, ?_, rfl, htexts⟩
          exact List.isChain_pair.mpr (Session.update_of_accepts accepted).2

/-- **A whole run.** -/
theorem advances_run (at_n : h.workspace.session? n = some s) (actions : List Action) :
    ∃ t, Advances n h s (h.applied n actions) (h.run actions) t := by
  induction actions generalizing h s with
  | nil => exact ⟨s, .refl at_n⟩
  | cons a rest ih =>
      obtain ⟨t, hfirst⟩ := advances_perform at_n a
      obtain ⟨u, hrest⟩ := ih hfirst.session
      exact ⟨u, hfirst.trans hrest⟩

theorem applied_append (h : Host) (n : SessionNumber) (before after : List Action) :
    h.applied n (before ++ after) = h.applied n before ++ (h.run before).applied n after := by
  induction before generalizing h with
  | nil => rfl
  | cons a rest ih =>
      rw [List.cons_append, applied, ih, applied, List.append_assoc]
      rfl

/-! ## The lineage of a session -/

/-- What can be said of the snapshots of the session with number `n`, which is `s` in the host `h`,
in the course of some actions. -/
structure Lineage (h : Host) (n : SessionNumber) (s : Session) (actions : List Action) : Prop where
  /-- The snapshots that are applied form a chain, from the first one at version 0. -/
  start : s.snapshot.version = 0
  chain : (s.snapshot :: h.applied n actions).IsChain Snapshot.Precedes
  /-- After some of the actions a client reads the one that was applied last. -/
  read : ∀ i, ∃ t, (h.run (actions.take i)).workspace.session? n = some t ∧
    (s.snapshot :: h.applied n (actions.take i)).getLast? = some t.snapshot
  /-- Two reads that show the same version show the same text and options. -/
  agree : ∀ i j t u, (h.run (actions.take i)).workspace.session? n = some t →
    (h.run (actions.take j)).workspace.session? n = some u →
    t.snapshot.version = u.snapshot.version →
    t.snapshot.text = u.snapshot.text ∧ t.snapshot.options = u.snapshot.options
  /-- An update that is refused changes nothing in the host, and no callback is told anything. -/
  refused : ∀ i t a next e, (h.run (actions.take i)).workspace.session? n = some t →
    actions[i]? = some a → (h.run (actions.take i)).submission? n a = some next →
    t.update next = .error e → h.run (actions.take (i + 1)) = h.run (actions.take i)
  /-- The callback is told the text of each snapshot that is applied, in order. -/
  told : (h.run actions).workspace.texts n = h.workspace.texts n ++
    if s.announcesText then (h.applied n actions).map (·.text) else []

/-- **The snapshots of a session form a chain.** Let a session of any host have its initial snapshot,
and let anything happen to the host: updates by anyone with any snapshots, by identifier or directly,
passes, closing and news. -/
theorem lineage_run (h : Host) (n : SessionNumber) (s : Session)
    (at_n : h.workspace.session? n = some s) (text : String) (options : CompilationOptions)
    (initial : s.snapshot = .initial text options) (actions : List Action) :
    h.Lineage n s actions := by
  obtain ⟨_, hrun⟩ := advances_run at_n actions
  have hread (i : Nat) := advances_run at_n (actions.take i)
  have hmem (i : Nat) (t : Session) (at_t : (h.run (actions.take i)).workspace.session? n = some t) :
      t.snapshot ∈ s.snapshot :: h.applied n actions := by
    obtain ⟨u, hu⟩ := hread i
    obtain rfl := Option.some.inj (at_t.symm.trans hu.session)
    -- what the first actions apply comes first in what all of them apply
    have happlied : h.applied n actions = h.applied n (actions.take i)
        ++ (h.run (actions.take i)).applied n (actions.drop i) := by
      rw [← applied_append, List.take_append_drop]
    rw [happlied, ← List.cons_append]
    exact List.mem_append_left _ (List.mem_of_getLast? hu.last)
  refine ⟨by rw [initial]; rfl, hrun.chain, fun i => ?_, fun i j t u at_t at_u hv => ?_,
    fun i t a next e at_t hi submitted refused => ?_, hrun.texts⟩
  · obtain ⟨t, ht⟩ := hread i
    exact ⟨t, ht.session, ht.last⟩
  · rw [Snapshot.eq_of_isChain hrun.chain (hmem i t at_t) (hmem j u at_u) hv]
    exact ⟨rfl, rfl⟩
  · have hrefused : t.accepts next = false := by simp [Session.accepts, refused, Except.toOption]
    have hstep : h.run (actions.take (i + 1)) = (h.run (actions.take i)).perform a := by
      rw [List.take_add_one, hi, Option.toList_some, run, List.foldl_append]
      rfl
    rw [hstep, perform_of_refused at_t submitted hrefused]

/-- A host in which a session has been opened that wants to hear of its text. -/
def opened : Host := ((new default default).open? default { text := "one", wantsText := true } [.nil]).2

/-- A client skips some versions, another one comes too late, a pass begins, the next update follows,
and the session is closed before the last one. -/
def skippingEdits : List Action :=
  [.updateSession 0 ⟨7, 0, "two", {}⟩, .updateSession 0 ⟨8, 0, "late", {}⟩, .reprocess .nil,
    .advance 0 0 default [], .update .nil ⟨9, 7, "three", {}⟩, .close .nil,
    .updateSession 0 ⟨10, 9, "closed", {}⟩]

/-- Two of the four updates are applied, and the callback is told of these. -/
theorem opened_lineage : ∃ s, opened.workspace.session? 0 = some s ∧
    opened.Lineage 0 s skippingEdits ∧
    opened.applied 0 skippingEdits = [⟨7, 0, "two", {}⟩, ⟨9, 7, "three", {}⟩] ∧
    (opened.run skippingEdits).workspace.texts 0 = ["two", "three"] :=
  ⟨_, rfl, lineage_run opened 0 _ rfl "one" {} rfl skippingEdits, by decide, by decide⟩

end Host

end ScriptSessions
