import Mathlib.Logic.Relation
import ScriptSessions.Proofs.Session.Runs

set_option autoImplicit false

/-! # Closing a session is final

A closed session takes no update and no findings, and it accepts no request that nobody waits
for. The passes that are under way when it is closed may still move, but whether the session is
closed is looked at when they take the lock and when they store what they have found; so they
end without a report, or with one that says that nothing was stored (`Frozen.passes`).

A pass gives up the processor only where it may be suspended. From the point where it stores its
findings, or finds the session closed, there is no such point up to its end. A `Turn` is what
happens to a session without a break: an action that is no step of a pass, or the steps of a
pass up to the next point where it may be suspended (`Session.advancePass`). Between two turns
no pass is just leaving.
-/

namespace ScriptSessions

open Reference

namespace Pass

/-- Whether a pass has nothing to show: if it has done its work, then without a report, or its
findings were not stored. -/
def Barren (p : Pass) : Prop := ∀ r, p.report? = some r → r.committed = false

/-- Whether a pass has done its work and has not released the lock. -/
def isLeaving (p : Pass) : Bool :=
  match p.stage with
  | .leaving _ => true
  | _ => false

/-- A pass of a closed session that has nothing to show will have nothing to show. -/
theorem Move.barren {s t : Session} {p q : Pass} (h : p.Move s q t) (closed : s.closed = true)
    (hp : p.Barren) : q.Barren := by
  cases h with
  | idle => exact hp
  | enter | turnBack | read | stop => exact nofun
  | look b w others c d rest found fetch =>
      obtain ⟨todo, found', fetch', h, -⟩ := stepDirective_eq w others c s d rest found fetch
      rw [h]
      exact nofun
  | commit b found fetch =>
      rintro r hr
      cases hr
      exact (Session.commit_of_closed closed found).2
  | leave b report => exact hp

/-- No pass stores findings in a closed session. -/
theorem Move.findings_of_closed {s t : Session} {p q : Pass} (h : p.Move s q t)
    (closed : s.closed = true) : t.findings = s.findings := by
  cases h with
  | idle | enter | turnBack | read | look | leave => rfl
  | commit b found fetch => rw [(Session.commit_of_closed closed found).1]
  | stop => split <;> rfl

end Pass

namespace Session

/-! ## A closed session is frozen -/

/-- The session `t` has come from the closed session `s`, and is frozen as it was: nothing of it
has changed that clients see, and the passes of `s` that had nothing to show have nothing to
show. The same is true of the passes that were asked for later. -/
structure Frozen (s t : Session) : Prop where
  closed : t.closed = true
  snapshot : t.snapshot = s.snapshot
  findings : t.findings = s.findings
  passes : ∀ (i : Nat) (q : Pass), t.passes[i]? = some q →
    (∀ p : Pass, s.passes[i]? = some p → p.Barren) → q.Barren

theorem Frozen.refl {s : Session} (closed : s.closed = true) : s.Frozen s :=
  ⟨closed, rfl, rfl, fun _ q hq h => h q hq⟩

theorem Frozen.trans {s t u : Session} (hst : s.Frozen t) (htu : t.Frozen u) : s.Frozen u :=
  ⟨htu.closed, htu.snapshot.trans hst.snapshot, htu.findings.trans hst.findings,
    fun i q hq h => htu.passes i q hq fun p hp => hst.passes i p hp h⟩

theorem frozen_perform {s : Session} (closed : s.closed = true) (a : Action) :
    s.Frozen (s.perform a) := by
  have h := s.effect_perform a
  generalize s.perform a = t at h
  cases h with
  | idle => exact .refl closed
  | update _ isOpen | fold isOpen | schedule isOpen => rw [closed] at isOpen; cases isOpen
  | requestNow =>
      refine ⟨closed, rfl, rfl, ?_⟩
      intro i q hq h
      rw [List.getElem?_append] at hq
      split at hq
      · exact h q hq
      · -- the pass that was asked for has done nothing yet
        rw [List.mem_singleton.mp (List.mem_of_getElem? hq)]
        exact nofun
  | cancel | close => exact ⟨rfl, rfl, rfl, fun _ q hq h => h q hq⟩
  | move _ i p q t at_i h =>
      have hfindings := h.findings_of_closed closed
      have hbarren := h.barren closed
      obtain ⟨gate, findings, rfl⟩ := h.frame
      refine ⟨closed, rfl, hfindings, ?_⟩
      intro j r hr h
      by_cases hij : i = j
      · subst hij
        have hi := (List.getElem?_eq_some_iff.mp at_i).1
        rw [← Option.some.inj ((List.getElem?_set_self hi).symm.trans hr)]
        exact hbarren (h p at_i)
      · exact h r ((List.getElem?_set_ne hij).symm.trans hr)

/-- **A closed session is frozen**, whatever happens to it. -/
theorem frozen_run {s : Session} (closed : s.closed = true) (actions : List Action) :
    s.Frozen (s.run actions) := by
  induction actions generalizing s with
  | nil => exact .refl closed
  | cons a rest ih =>
      have hfirst := frozen_perform closed a
      exact hfirst.trans (ih hfirst.closed)

/-! ## Turns -/

/-- The session and the cache after a pass has taken its steps up to the next point where it may
be suspended. -/
def advancePass (w : World) (others : List Fetch) (c : Cache) (s : Session) (i : Nat) :
    Session × Cache :=
  let next := s.stepPass w others c i
  if next.1.passes[i]?.any Pass.isLeaving then next.1.stepPass w others next.2 i else next

/-- Whether an action is the step of a pass. -/
def Action.isStep : Action → Bool
  | .step _ _ _ _ => true
  | _ => false

/-- What happens to a session without a break. -/
inductive Turn (s : Session) : Session → Prop where
  | act (a : Action) (h : a.isStep = false) : Turn s (s.perform a)
  | advance (w : World) (others : List Fetch) (c : Cache) (i : Nat) :
      Turn s (s.advancePass w others c i).1

/-- A turn is a run. -/
theorem Turn.exists_run {s t : Session} (h : s.Turn t) : ∃ actions, t = s.run actions := by
  cases h with
  | act a => exact ⟨[a], rfl⟩
  | advance w others c i =>
      simp only [advancePass]
      split
      · exact ⟨[.step i w others c, .step i w others (s.stepPass w others c i).2], rfl⟩
      · exact ⟨[.step i w others c], rfl⟩

/-- What every action keeps is kept by a turn. -/
theorem Turn.keeps {P : Session → Prop} (keep : ∀ s a, P s → P (s.perform a)) {s t : Session}
    (h : s.Turn t) (hs : P s) : P t := by
  obtain ⟨actions, rfl⟩ := h.exists_run
  exact run_induction keep hs actions

/-- Several turns, one after another. -/
def Turns : Session → Session → Prop := Relation.ReflTransGen Turn

theorem Turns.id {s t : Session} (h : s.Turns t) : t.id = s.id := by
  induction h with
  | refl => rfl
  | tail _ hturn ih =>
      obtain ⟨actions, rfl⟩ := hturn.exists_run
      exact (id_run _ actions).trans ih

theorem Turns.frozen {s t : Session} (h : s.Turns t) (closed : s.closed = true) : s.Frozen t := by
  induction h with
  | refl => exact .refl closed
  | tail _ hturn ih =>
      obtain ⟨actions, rfl⟩ := hturn.exists_run
      exact ih.trans (frozen_run ih.closed actions)

/-- No pass of the session is just leaving. -/
def BetweenTurns (s : Session) : Prop := ∀ p ∈ s.passes, p.isLeaving = false

/-- What is no step of a pass leaves the findings alone, and the passes too, except that a new one
may be asked for, or one be stopped. -/
theorem calm_perform (s : Session) {a : Action} (ha : a.isStep = false) :
    (s.perform a).findings = s.findings ∧
      ((s.perform a).passes = s.passes ∨
        (∃ b, (s.perform a).passes = s.passes ++ [⟨b, .queued⟩]) ∨
        ∃ i p, s.passes[i]? = some p ∧
          (s.perform a).passes = s.passes.set i ⟨p.scheduled, .ended none⟩) := by
  have hstop {a : Action} {i : Nat} (hi : a = .drop i ∨ a = .abandon i) :
      (s.perform a).findings = s.findings ∧
        ((s.perform a).passes = s.passes ∨
          (∃ b, (s.perform a).passes = s.passes ++ [⟨b, .queued⟩]) ∨
          ∃ i p, s.passes[i]? = some p ∧
            (s.perform a).passes = s.passes.set i ⟨p.scheduled, .ended none⟩) := by
    rcases s.perform_stop hi with hsame | ⟨p, at_i, -, -, hstop⟩
    · rw [hsame]
      exact ⟨rfl, .inl rfl⟩
    · rw [hstop]
      split <;> exact ⟨rfl, .inr (.inr ⟨i, p, at_i, rfl⟩)⟩
  cases a with
  | update next =>
      simp only [perform, Session.update]
      split
      · exact ⟨rfl, .inl rfl⟩
      · split <;> exact ⟨rfl, .inl rfl⟩
  | request =>
      simp only [perform, Session.request]
      split
      · exact ⟨rfl, .inl rfl⟩
      · split
        · exact ⟨rfl, .inl rfl⟩
        · exact ⟨rfl, .inr (.inl ⟨true, rfl⟩)⟩
  | requestNow => exact ⟨rfl, .inr (.inl ⟨false, rfl⟩)⟩
  | cancel | close => exact ⟨rfl, .inl rfl⟩
  | step => cases ha
  | drop i => exact hstop (.inl rfl)
  | abandon i => exact hstop (.inr rfl)

theorem BetweenTurns.perform {s : Session} (h : s.BetweenTurns) {a : Action}
    (ha : a.isStep = false) : (s.perform a).BetweenTurns := by
  intro q hq
  rcases (s.calm_perform ha).2 with hsame | ⟨b, hask⟩ | ⟨i, p, -, hstop⟩
  · exact h q (hsame ▸ hq)
  · rw [hask] at hq
    rcases List.mem_append.mp hq with hmem | hnew
    · exact h q hmem
    · rw [List.mem_singleton.mp hnew]
      rfl
  · rw [hstop] at hq
    rcases List.mem_or_eq_of_mem_set hq with hmem | rfl
    · exact h q hmem
    · rfl

theorem stepPass_eq {s : Session} {p : Pass} {i : Nat} (at_i : s.passes[i]? = some p) (w : World)
    (others : List Fetch) (c : Cache) :
    s.stepPass w others c i
      = ((p.step w others c s).2.1.setPass i (p.step w others c s).1,
          (p.step w others c s).2.2) := by
  simp only [stepPass, at_i]

theorem passes_stepPass {s : Session} {p : Pass} {i : Nat} (at_i : s.passes[i]? = some p)
    (w : World) (others : List Fetch) (c : Cache) :
    (s.stepPass w others c i).1.passes = s.passes.set i (p.step w others c s).1 := by
  obtain ⟨gate, findings, hframe⟩ := (p.move_step w others c s).frame
  simp only [stepPass_eq at_i, Session.setPass, hframe]

/-- A pass goes on with one step, unless that leaves it just leaving. -/
theorem advancePass_of_step (w : World) (others : List Fetch) (c : Cache) {s : Session} {i : Nat}
    {p : Pass} (at_i : s.passes[i]? = some p) (hq : (p.step w others c s).1.isLeaving = false) :
    s.advancePass w others c i
      = ((p.step w others c s).2.1.setPass i (p.step w others c s).1,
          (p.step w others c s).2.2) := by
  have hnext : (s.stepPass w others c i).1.passes[i]? = some (p.step w others c s).1 := by
    rw [passes_stepPass at_i, List.getElem?_set_self (List.getElem?_eq_some_iff.mp at_i).1]
  simp only [advancePass, hnext, Option.any_some, hq, Bool.false_eq_true, if_false]
  exact stepPass_eq at_i w others c

/-- A pass that is just leaving releases the lock without a break. -/
theorem advancePass_of_leaving (w : World) (others : List Fetch) (c : Cache) {s : Session}
    {i : Nat} {p : Pass} (at_i : s.passes[i]? = some p) {b : Bool} {report : Option Report}
    (hq : (p.step w others c s).1 = ⟨b, .leaving report⟩) :
    s.advancePass w others c i
      = ((p.step w others c s).2.1.unlock.setPass i ⟨b, .ended report⟩,
          (p.step w others c s).2.2) := by
  have hnext : (s.stepPass w others c i).1.passes[i]? = some ⟨b, .leaving report⟩ := by
    rw [passes_stepPass at_i, List.getElem?_set_self (List.getElem?_eq_some_iff.mp at_i).1, hq]
  simp only [advancePass, hnext, Option.any_some, Pass.isLeaving, if_true]
  rw [stepPass_eq hnext, stepPass_eq at_i]
  simp [Pass.step, setPass, unlock]

theorem BetweenTurns.setPass {s t : Session} {q : Pass} (h : s.BetweenTurns)
    (passes : t.passes = s.passes) (hq : q.isLeaving = false) (i : Nat) :
    (t.setPass i q).BetweenTurns := by
  intro p hp
  rcases List.mem_or_eq_of_mem_set hp with hmem | rfl
  · exact h p (passes ▸ hmem)
  · exact hq

theorem BetweenTurns.advance {s : Session} (h : s.BetweenTurns) (w : World) (others : List Fetch)
    (c : Cache) (i : Nat) : (s.advancePass w others c i).1.BetweenTurns := by
  cases at_i : s.passes[i]? with
  | none =>
      have hstep : s.stepPass w others c i = (s, c) := by simp only [stepPass, at_i]
      simp only [advancePass, hstep, at_i]
      exact h
  | some p =>
      obtain ⟨gate, findings, hframe⟩ := (p.move_step w others c s).frame
      have hpasses : (p.step w others c s).2.1.passes = s.passes := by rw [hframe]
      cases hq : (p.step w others c s).1.stage with
      | leaving report =>
          rw [advancePass_of_leaving w others c at_i (congrArg (Pass.mk _) hq)]
          exact h.setPass hpasses rfl i
      | queued | entered | resolving | ended =>
          have hstays : (p.step w others c s).1.isLeaving = false := by rw [Pass.isLeaving, hq]
          rw [advancePass_of_step w others c at_i hstays]
          exact h.setPass hpasses hstays i

/-- Between two turns no pass is just leaving. -/
theorem Turns.betweenTurns {s t : Session} (h : s.Turns t) (hs : s.BetweenTurns) :
    t.BetweenTurns := by
  induction h with
  | refl => exact hs
  | tail _ hturn ih =>
      cases hturn with
      | act a ha => exact ih.perform ha
      | advance w others c i => exact ih.advance w others c i

end Session

end ScriptSessions
