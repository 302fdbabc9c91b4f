import ScriptSessions.Proofs.Lists
import ScriptSessions.Session.Pass

set_option autoImplicit false

/-! # Runs of a session

Everything that can happen to a session is an `Action`: clients submit snapshots and ask for
passes, the token is cancelled, the session is closed, and its passes take their steps one at
a time, each beside the fetches of everyone else and on the cache and the files as they are at
that moment. A run is a list of actions, so a statement about all lists of actions is one about
every interleaving.

What a pass can do in one action is said once, by `Pass.Move`: which stage leads to which, and
what becomes of the session. The theories of the gate, of requests and of closing are case
distinctions over its constructors and never open `Pass.step`.
-/

namespace ScriptSessions

open Reference

/-! ## The lock -/

namespace Session

/-- A session whose gate is locked by a pass, which counts as waiting no longer if it was
scheduled. -/
def lock (s : Session) (scheduled : Bool) : Session :=
  { s with gate := { s.gate with
      locked := true, pending := if scheduled then false else s.gate.pending } }

/-- A session whose gate is free again. -/
def unlock (s : Session) : Session := { s with gate := { s.gate with locked := false } }

theorem commit_of_closed {s : Session} (h : s.closed = true) (found : Findings) :
    (s.commit found).2 = s ∧ (s.commit found).1.committed = false := by
  simp [commit, h]

theorem commit_of_open {s : Session} (h : s.closed = false) (found : Findings) :
    (s.commit found).2 = { s with findings := { found with number := s.findings.number + 1 } } := by
  simp [commit, h]

end Session

/-! ## What a pass can do -/

namespace Pass

/-- Stops a pass where it is: it ends without a report, and a lock that it has is released. -/
def stop (s : Session) (p : Pass) : Pass × Session :=
  ({ p with stage := .ended none }, if p.isInside then s.unlock else s)

/-- The client that waits for a pass gives up on it. No client waits for a scheduled pass. -/
def abandon (s : Session) (p : Pass) : Pass × Session :=
  if !p.scheduled && !p.isEnded then p.stop s else (p, s)

theorem drop_eq (s : Session) (p : Pass) :
    p.drop s = if p.scheduled && s.closed && !p.isEnded then p.stop s else (p, s) := rfl

/-- What a pass can do in one action: `Move s p q t` says that the pass `p` of the session `s`
may become `q` while the session becomes `t`. -/
inductive Move (s : Session) : Pass → Pass → Session → Prop where
  /-- Nothing happens: the lock is taken, the pass is over, or it may not be stopped. -/
  | idle (p : Pass) : Move s p p s
  /-- The pass takes the lock of an open session. -/
  | enter (b : Bool) (free : s.gate.locked = false) (isOpen : s.closed = false) :
      Move s ⟨b, .queued⟩ ⟨b, .entered⟩ (s.lock b)
  /-- The pass takes the lock, and finds the session closed. -/
  | turnBack (b : Bool) (free : s.gate.locked = false) (isClosed : s.closed = true) :
      Move s ⟨b, .queued⟩ ⟨b, .leaving none⟩ (s.lock b)
  /-- The pass reads the snapshot. -/
  | read (b : Bool) : Move s ⟨b, .entered⟩ ⟨b, readSnapshot s⟩ s
  /-- The pass looks at a directive. -/
  | look (b : Bool) (w : World) (others : List Fetch) (c : Cache) (d : Directive)
      (rest : List Directive) (found : Findings) (fetch : Option Fetch) :
      Move s ⟨b, .resolving (d :: rest) found fetch⟩
        ⟨b, (stepDirective w others c s d rest found fetch).1⟩ s
  /-- The pass stores its findings, unless the session is closed. -/
  | commit (b : Bool) (found : Findings) (fetch : Option Fetch) :
      Move s ⟨b, .resolving [] found fetch⟩ ⟨b, .leaving (some (s.commit found).1)⟩
        (s.commit found).2
  /-- The pass releases the lock. -/
  | leave (b : Bool) (report : Option Report) :
      Move s ⟨b, .leaving report⟩ ⟨b, .ended report⟩ s.unlock
  /-- The pass is stopped, by its client or because its session is closed. -/
  | stop (p : Pass) (unfinished : p.isEnded = false)
      (why : p.scheduled = true → s.closed = true) :
      Move s p ⟨p.scheduled, .ended none⟩ (if p.isInside then s.unlock else s)

/-- A pass changes nothing of its session but the gate and the findings. -/
theorem Move.frame {s t : Session} {p q : Pass} (h : p.Move s q t) :
    ∃ gate findings, t = { s with gate := gate, findings := findings } := by
  cases h with
  | idle | read | look => exact ⟨s.gate, s.findings, rfl⟩
  | enter | turnBack | leave => exact ⟨_, s.findings, rfl⟩
  | commit _ found _ =>
      by_cases hc : s.closed = true
      · exact ⟨s.gate, s.findings, (Session.commit_of_closed hc found).1⟩
      · exact ⟨s.gate, _, Session.commit_of_open (by simpa using hc) found⟩
  | stop =>
      split
      · exact ⟨_, s.findings, rfl⟩
      · exact ⟨s.gate, s.findings, rfl⟩

theorem move_step (w : World) (others : List Fetch) (c : Cache) (s : Session) (p : Pass) :
    Move s p (p.step w others c s).1 (p.step w others c s).2.1 := by
  obtain ⟨b, stage⟩ := p
  cases stage with
  | queued =>
      -- the lock comes first; whether the session is closed is looked at with the lock in hand
      cases hl : s.gate.locked with
      | true =>
          have h : Pass.step w others c s ⟨b, .queued⟩ = (⟨b, .queued⟩, s, c) := by
            simp [step, enter, hl]
          rw [h]
          exact .idle _
      | false =>
          cases hc : s.closed with
          | false =>
              have h : Pass.step w others c s ⟨b, .queued⟩ = (⟨b, .entered⟩, s.lock b, c) := by
                simp [step, enter, hl, hc, Session.lock]
              rw [h]
              exact .enter b hl hc
          | true =>
              have h : Pass.step w others c s ⟨b, .queued⟩
                  = (⟨b, .leaving none⟩, s.lock b, c) := by
                simp [step, enter, hl, hc, Session.lock]
              rw [h]
              exact .turnBack b hl hc
  | entered => exact .read b
  | resolving todo found fetch =>
      cases todo with
      | nil => exact .commit b found fetch
      | cons d rest => exact .look b w others c d rest found fetch
  | leaving report => exact .leave b report
  | ended report => exact .idle _

/-- Looking at a directive keeps the pass among the directives, with the version of the text
that it has read. -/
theorem stepDirective_eq (w : World) (others : List Fetch) (c : Cache) (s : Session)
    (d : Directive) (rest : List Directive) (found : Findings) (fetch : Option Fetch) :
    ∃ todo found' fetch', (stepDirective w others c s d rest found fetch).1
        = .resolving todo found' fetch' ∧ found'.textVersion = found.textVersion := by
  unfold stepDirective
  split
  · -- a script directive is settled in one step
    refine ⟨_, _, _, rfl, ?_⟩
    unfold Findings.addScript
    split <;> rfl
  · -- a reference directive begins a fetch, unless its value leads to no location
    split
    · exact ⟨_, _, _, rfl, rfl⟩
    · exact ⟨_, _, _, rfl, rfl⟩
  · -- and goes on until the fetch is over
    split
    · next result _ =>
        refine ⟨_, _, _, rfl, ?_⟩
        unfold Findings.addReference
        cases result <;> rfl
    · exact ⟨_, _, _, rfl, rfl⟩

end Pass

/-! ## Actions -/

namespace Session

/-- A session with another pass in the place of the one with the given number. -/
def setPass (s : Session) (i : Nat) (p : Pass) : Session := { s with passes := s.passes.set i p }

/-- The session and the cache after a step of the pass with the given number. -/
def stepPass (w : World) (others : List Fetch) (c : Cache) (s : Session) (i : Nat) :
    Session × Cache :=
  match s.passes[i]? with
  | none => (s, c)
  | some p =>
    let (p, s, c) := p.step w others c s
    (s.setPass i p, c)

/-- The session after the pass with the given number has been changed on its own. -/
def movePass (move : Session → Pass → Pass × Session) (s : Session) (i : Nat) : Session :=
  match s.passes[i]? with
  | none => s
  | some p =>
    let (p, s) := move s p
    s.setPass i p

/-- Something that happens to a session. -/
inductive Action where
  /-- A client submits a snapshot. -/
  | update (next : Snapshot)
  /-- A pass is asked for that nobody waits for. -/
  | request
  /-- A pass is asked for that its client waits for. -/
  | requestNow
  /-- The token of the session is cancelled. -/
  | cancel
  /-- The session is closed. -/
  | close
  /-- A pass takes a step beside the given fetches. -/
  | step (i : Nat) (w : World) (others : List Fetch) (c : Cache)
  /-- A scheduled pass is dropped because the session is closed. -/
  | drop (i : Nat)
  /-- The client that waits for a pass gives up on it. -/
  | abandon (i : Nat)

/-- The session after an action. -/
def perform (s : Session) : Action → Session
  | .update next => (s.update next).toOption.getD s
  | .request => s.request.2
  | .requestNow => s.requestNow
  | .cancel => s.cancel
  | .close => s.close
  | .step i w others c => (s.stepPass w others c i).1
  | .drop i => s.movePass Pass.drop i
  | .abandon i => s.movePass Pass.abandon i

/-- The session after a list of actions. -/
def run (s : Session) (actions : List Action) : Session := actions.foldl perform s

@[simp] theorem run_nil (s : Session) : s.run [] = s := rfl

@[simp] theorem run_cons (s : Session) (a : Action) (rest : List Action) :
    s.run (a :: rest) = (s.perform a).run rest := rfl

theorem run_append (s : Session) (before after : List Action) :
    s.run (before ++ after) = (s.run before).run after := List.foldl_append ..

/-- What holds at first and is kept by every action holds after every run. -/
theorem run_induction {P : Session → Prop} (keep : ∀ s a, P s → P (s.perform a)) {s : Session}
    (h : P s) (actions : List Action) : P (s.run actions) := by
  induction actions generalizing s with
  | nil => exact h
  | cons a rest ih => exact ih (keep s a h)

/-- A session that may come about: a new one after some run. -/
def Reachable (s : Session) : Prop :=
  ∃ cwd id name request options overrides actions,
    s = (create cwd id name request options overrides).run actions

theorem Reachable.run {s : Session} (h : s.Reachable) (actions : List Action) :
    (s.run actions).Reachable := by
  obtain ⟨cwd, id, name, request, options, overrides, before, rfl⟩ := h
  exact ⟨cwd, id, name, request, options, overrides, before ++ actions, (run_append ..).symm⟩

/-- What new sessions have and every action keeps is so for every reachable session. -/
theorem Reachable.induction {P : Session → Prop}
    (new : ∀ cwd id name request options overrides,
      P (create cwd id name request options overrides))
    (keep : ∀ s a, P s → P (s.perform a)) {s : Session} (h : s.Reachable) : P s := by
  obtain ⟨cwd, id, name, request, options, overrides, actions, rfl⟩ := h
  exact run_induction keep (new cwd id name request options overrides) actions

/-! ## The effect of an action -/

/-- What an action can do to a session: an accepted update, a request, a mark, or the move of
one pass. -/
inductive Effect (s : Session) : Action → Session → Prop where
  /-- Nothing happens: the update is refused, or there is no such pass. -/
  | idle (a : Action) : Effect s a s
  | update (next : Snapshot) (isOpen : s.closed = false)
      (base : next.baseVersion = s.snapshot.version)
      (newer : s.snapshot.version < next.version) :
      Effect s (.update next) { s with snapshot := next }
  /-- The request is folded into the pass that waits. -/
  | fold (isOpen : s.closed = false) (pending : s.gate.pending = true) :
      Effect s .request { s with gate := { s.gate with coalesced := s.gate.coalesced + 1 } }
  /-- A new pass waits. -/
  | schedule (isOpen : s.closed = false) (idle : s.gate.pending = false) :
      Effect s .request { s with
        gate := { s.gate with pending := true }, passes := s.passes ++ [⟨true, .queued⟩] }
  | requestNow : Effect s .requestNow { s with passes := s.passes ++ [⟨false, .queued⟩] }
  | cancel : Effect s .cancel { s with closed := true }
  | close : Effect s .close { s with closed := true, delivering := false }
  | move (a : Action) (i : Nat) (p q : Pass) (t : Session) (at_i : s.passes[i]? = some p)
      (h : p.Move s q t) : Effect s a (t.setPass i q)

/-- A pass that is dropped or given up is stopped, if anything happens at all: it is not over yet,
and a scheduled one is stopped only when its session is closed. -/
theorem perform_stop (s : Session) {a : Action} {i : Nat} (ha : a = .drop i ∨ a = .abandon i) :
    s.perform a = s ∨ ∃ p, s.passes[i]? = some p ∧ p.isEnded = false ∧
      (p.scheduled = true → s.closed = true) ∧
      s.perform a = (if p.isInside then s.unlock else s).setPass i ⟨p.scheduled, .ended none⟩ := by
  have hmove (move : Session → Pass → Pass × Session) (hstops : ∀ p : Pass, move s p = (p, s) ∨
      p.isEnded = false ∧ (p.scheduled = true → s.closed = true) ∧ move s p = p.stop s) :
      s.movePass move i = s ∨ ∃ p, s.passes[i]? = some p ∧ p.isEnded = false ∧
        (p.scheduled = true → s.closed = true) ∧
        s.movePass move i
          = (if p.isInside then s.unlock else s).setPass i ⟨p.scheduled, .ended none⟩ := by
    unfold movePass
    split
    · exact .inl rfl
    · next p at_i =>
        rcases hstops p with hsame | ⟨unfinished, why, hstop⟩
        · rw [hsame]
          exact .inl (by simp only [setPass, set_eq_self at_i])
        · exact .inr ⟨p, at_i, unfinished, why, by rw [hstop]; rfl⟩
  rcases ha with rfl | rfl
  · refine hmove Pass.drop fun p => ?_
    rw [Pass.drop_eq]
    split
    · next h =>
        simp only [Bool.and_eq_true, Bool.not_eq_true'] at h
        exact .inr ⟨h.2, fun _ => h.1.2, rfl⟩
    · exact .inl rfl
  · refine hmove Pass.abandon fun p => ?_
    unfold Pass.abandon
    split
    · next h =>
        simp only [Bool.and_eq_true, Bool.not_eq_true'] at h
        exact .inr ⟨h.2, fun hs => absurd (h.1.symm.trans hs) Bool.false_ne_true, rfl⟩
    · exact .inl rfl

theorem effect_stop (s : Session) {a : Action} {i : Nat} (ha : a = .drop i ∨ a = .abandon i) :
    Effect s a (s.perform a) := by
  rcases s.perform_stop ha with hsame | ⟨p, at_i, unfinished, why, hstop⟩
  · rw [hsame]
    exact .idle a
  · rw [hstop]
    exact .move a i p _ _ at_i (.stop p unfinished why)

theorem effect_perform (s : Session) (a : Action) : Effect s a (s.perform a) := by
  cases a with
  | update next =>
      simp only [perform, update]
      split
      · exact .idle _
      · next hc =>
          split
          · exact .idle _
          · next hv =>
              obtain ⟨hb, hn⟩ := not_or.mp hv
              exact .update next (by simpa using hc) (Decidable.of_not_not hb)
                (UInt64.not_le.mp hn)
  | request =>
      simp only [perform, request]
      split
      · exact .idle _
      · next hc =>
          split
          · next hp => exact .fold (by simpa using hc) hp
          · next hp => exact .schedule (by simpa using hc) (by simpa using hp)
  | requestNow => exact .requestNow
  | cancel => exact .cancel
  | close => exact .close
  | step i w others c =>
      simp only [perform, stepPass]
      split
      · exact .idle _
      · next p hp => exact .move _ i p _ _ hp (p.move_step w others c s)
  | drop i => exact s.effect_stop (.inl rfl)
  | abandon i => exact s.effect_stop (.inr rfl)

/-- The identifier of a session stays the same. -/
theorem id_run (s : Session) (actions : List Action) : (s.run actions).id = s.id := by
  refine run_induction (P := fun t => t.id = s.id) (fun t a ht => ?_) rfl actions
  have h := t.effect_perform a
  generalize t.perform a = u at h
  cases h with
  | idle | update | fold | schedule | requestNow | cancel | close => exact ht
  | move _ i p q u at_i h =>
      obtain ⟨gate, findings, rfl⟩ := h.frame
      exact ht

end Session

end ScriptSessions
