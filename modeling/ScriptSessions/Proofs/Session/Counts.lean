import ScriptSessions.Proofs.Session.Closing
import ScriptSessions.Proofs.Session.Edits
import ScriptSessions.Proofs.Session.Gate

set_option autoImplicit false

/-! # What the gate counts

Requests go in at the gate, and scheduled passes come out of it with the lock. Nothing is lost on
the way: a request that is accepted becomes a pass or is counted as folded into one
(`coalesced_run`), and while the session is open a scheduled pass stops waiting only by taking the
lock (`waiting_run`). Together with the lock and the flag this makes the gate a queue of one
(`queueOfOne_create`).

Whoever asks for a pass and waits for it takes the same lock but is no request here, and neither
sets the flag nor clears it.
-/

namespace ScriptSessions

/-- A pass of an open session stops waiting only by taking the lock. -/
theorem Pass.Move.isWaiting {s t : Session} {p q : Pass} (h : p.Move s q t)
    (isOpen : s.closed = false) :
    p.isWaiting.toNat = q.isWaiting.toNat + (p.isWaiting && q.isInside).toNat := by
  have hpast {p q : Pass} (hp : p.isQueued = false) (hq : q.isQueued = false) :
      p.isWaiting.toNat = q.isWaiting.toNat + (p.isWaiting && q.isInside).toNat := by
    rw [isWaiting_eq_false hp, isWaiting_eq_false hq]
    rfl
  cases h with
  | idle =>
      obtain ⟨b, stage⟩ := p
      cases stage with
      | queued => cases b <;> rfl
      | entered | resolving | leaving | ended => exact hpast rfl rfl
  | enter b | turnBack b => cases b <;> rfl
  | read | commit | leave => exact hpast rfl rfl
  | look b w others c d rest found fetch =>
      exact hpast rfl (look_eq b w others c s d rest found fetch).2.1
  | stop _ _ why =>
      rw [isWaiting_of_stop why isOpen, isWaiting_eq_false rfl]
      rfl

/-- No pass counts a request as folded. -/
theorem Pass.Move.coalesced {s t : Session} {p q : Pass} (h : p.Move s q t) :
    t.gate.coalesced = s.gate.coalesced := by
  cases h with
  | idle | enter | turnBack | read | look | leave => rfl
  | commit b found fetch =>
      by_cases hc : s.closed = true
      · rw [(Session.commit_of_closed hc found).1]
      · rw [Session.commit_of_open (by simpa using hc)]
  | stop => split <;> rfl

/-- A pass that is no longer queued is not queued again. -/
theorem Pass.Move.past {s t : Session} {p q : Pass} (h : p.Move s q t)
    (hp : p.isQueued = false) : q.isQueued = false := by
  cases h with
  | idle => exact hp
  | enter | turnBack => cases hp
  | read | commit | leave | stop => rfl
  | look b w others c d rest found fetch =>
      exact (look_eq b w others c s d rest found fetch).2.1

namespace Session

/-! ## Requests and admissions -/

/-- Whether an action is a request for a pass that nobody waits for. -/
def Action.isRequest : Action → Bool
  | .request => true
  | _ => false

/-- The outcome of a request. -/
def outcome? (s : Session) (a : Action) : Option RequestOutcome :=
  if a.isRequest then some s.request.1 else none

/-- The outcomes of the requests in a run, in order. -/
def outcomes (s : Session) : List Action → List RequestOutcome
  | [] => []
  | a :: rest => (s.outcome? a).toList ++ (s.perform a).outcomes rest

/-- The number of the scheduled pass that takes the lock in an action. -/
def admitted? (s : Session) : Action → Option Nat
  | .step i w others c =>
    if s.passes[i]?.any Pass.isWaiting && (s.stepPass w others c i).1.passes[i]?.any Pass.isInside
    then some i else none
  | _ => none

/-- The numbers of the scheduled passes that take the lock in a run, in order. -/
def admissions (s : Session) : List Action → List Nat
  | [] => []
  | a :: rest => (s.admitted? a).toList ++ (s.perform a).admissions rest

/-- Whether a pass has got past the lock, or is over without having had it. -/
def Past (s : Session) (i : Nat) : Prop := ∃ p, s.passes[i]? = some p ∧ p.isQueued = false

/-- The number of scheduled passes that wait for the lock. -/
def waiting (s : Session) : Nat := s.passes.countP Pass.isWaiting

/-- The number of passes that are between taking the lock and releasing it. -/
def inside (s : Session) : Nat := s.passes.countP Pass.isInside

/-! ## One action -/

/-- A session that is open after an action was open before. -/
theorem isOpen_of_perform {s : Session} {a : Action} (h : (s.perform a).closed = false) :
    s.closed = false := by
  cases hc : s.closed with
  | false => rfl
  | true =>
      rw [(frozen_perform hc a).closed] at h
      cases h

theorem isOpen_of_run {s : Session} {actions : List Action}
    (h : (s.run actions).closed = false) : s.closed = false := by
  induction actions generalizing s with
  | nil => exact h
  | cons a rest ih => exact isOpen_of_perform (ih h)

/-- A request is counted if it is folded into a pass, and nothing else is counted. -/
theorem coalesced_perform (s : Session) (a : Action) :
    (s.perform a).gate.coalesced
      = s.gate.coalesced + UInt64.ofNat ((s.outcome? a).toList.count .coalesced) := by
  have hnothing : s.gate.coalesced = s.gate.coalesced + UInt64.ofNat 0 := (UInt64.add_zero _).symm
  cases ha : a.isRequest with
  | true =>
      cases a with
      | request =>
          simp only [perform, outcome?, Action.isRequest, if_true, request]
          split
          · exact hnothing
          · split
            · rfl
            · exact hnothing
      | update | requestNow | cancel | close | step | drop | abandon => cases ha
  | false =>
      have h := s.effect_perform a
      generalize s.perform a = t at h
      simp only [outcome?, ha, Bool.false_eq_true, if_false]
      cases h with
      | idle | update | requestNow | cancel | close => exact hnothing
      | fold | schedule => cases ha
      | move _ i p q t at_i h => exact h.coalesced.trans hnothing

/-- No pass of an open session that waits is dropped or given up. -/
theorem waiting_stop {s : Session} (isOpen : s.closed = false) {a : Action} {i : Nat}
    (ha : a = .drop i ∨ a = .abandon i) : (s.perform a).waiting = s.waiting := by
  rcases s.perform_stop ha with hsame | ⟨p, at_i, -, why, hstop⟩
  · rw [hsame]
  · have hcount := countP_set_add Pass.isWaiting at_i ⟨p.scheduled, .ended none⟩
    rw [Pass.isWaiting_of_stop why isOpen, Pass.isWaiting_eq_false rfl] at hcount
    rw [hstop]
    split <;> exact Nat.add_right_cancel hcount

/-- A step of a pass in an open session takes a scheduled pass out of the queue if it gets the
lock. -/
theorem waiting_stepPass {s : Session} (isOpen : s.closed = false) (w : World)
    (others : List Reference.Fetch) (c : Reference.Cache) (i : Nat) :
    (s.admitted? (.step i w others c)).toList.length + (s.stepPass w others c i).1.waiting
      = s.waiting := by
  have hone (b : Bool) : (if b = true then some i else none).toList.length = b.toNat := by
    cases b <;> rfl
  cases at_i : s.passes[i]? with
  | none => simp [admitted?, stepPass, at_i]
  | some p =>
      have hi := (List.getElem?_eq_some_iff.mp at_i).1
      have hcount := countP_set_add Pass.isWaiting at_i (p.step w others c s).1
      have hmove := (p.move_step w others c s).isWaiting isOpen
      -- the pass leaves the queue exactly when it is the one that is admitted
      simp only [admitted?, waiting, passes_stepPass at_i, at_i, List.getElem?_set_self hi,
        Option.any_some, hone]
      omega

/-- In an open session a scheduled pass begins to wait when a request is answered so, and waits
until it takes the lock. -/
theorem waiting_perform {s : Session} {a : Action} (isOpen : (s.perform a).closed = false) :
    (s.admitted? a).toList.length + (s.perform a).waiting
      = (s.outcome? a).toList.count .scheduled + s.waiting := by
  have hopen := isOpen_of_perform isOpen
  cases a with
  | request =>
      simp only [perform, outcome?, Action.isRequest, if_true, request, hopen, Bool.false_eq_true,
        if_false, admitted?]
      split
      · rfl
      · show 0 + List.countP Pass.isWaiting (s.passes ++ [⟨true, .queued⟩]) = 1 + s.waiting
        rw [List.countP_append, Nat.zero_add, Nat.add_comm]
        rfl
  | requestNow =>
      show 0 + List.countP Pass.isWaiting (s.passes ++ [⟨false, .queued⟩]) = 0 + s.waiting
      rw [List.countP_append]
      rfl
  | update next =>
      show 0 + ((s.update next).toOption.getD s).waiting = 0 + s.waiting
      simp only [update, hopen, Bool.false_eq_true, if_false]
      split <;> rfl
  | cancel | close => rfl
  | step i w others c =>
      show _ = 0 + s.waiting
      rw [Nat.zero_add]
      exact waiting_stepPass hopen w others c i
  | drop i =>
      show 0 + _ = 0 + _
      rw [waiting_stop hopen (.inl rfl)]
  | abandon i =>
      show 0 + _ = 0 + _
      rw [waiting_stop hopen (.inr rfl)]

/-- A pass that has got past the lock does not come back to it. -/
theorem Past.perform {s : Session} {i : Nat} (h : s.Past i) (a : Action) :
    (s.perform a).Past i := by
  obtain ⟨p, at_i, hp⟩ := h
  have heffect := s.effect_perform a
  generalize s.perform a = t at heffect
  cases heffect with
  | idle | update | fold | cancel | close => exact ⟨p, at_i, hp⟩
  | schedule | requestNow =>
      have hi := (List.getElem?_eq_some_iff.mp at_i).1
      exact ⟨p, (List.getElem?_append_left hi).trans at_i, hp⟩
  | move _ j p' q t at_j h =>
      have hpast := h.past
      obtain ⟨gate, findings, rfl⟩ := h.frame
      by_cases hij : j = i
      · subst hij
        have hj := (List.getElem?_eq_some_iff.mp at_j).1
        rw [at_i] at at_j
        exact ⟨q, List.getElem?_set_self hj, hpast (Option.some.inj at_j ▸ hp)⟩
      · exact ⟨p, (List.getElem?_set_ne hij).trans at_i, hp⟩

/-- The pass that takes the lock was waiting, and is past the lock. -/
theorem past_of_admitted {s : Session} {a : Action} {i : Nat} (h : s.admitted? a = some i) :
    ¬ s.Past i ∧ (s.perform a).Past i := by
  cases a with
  | step j w others c =>
      simp only [admitted?, Bool.and_eq_true, Option.any_eq_true] at h
      split at h
      · next hadmit =>
          obtain ⟨⟨p, at_j, hp⟩, q, at_j', hq⟩ := hadmit
          obtain rfl := Option.some.inj h
          refine ⟨?_, q, at_j', ?_⟩
          · rintro ⟨p', at_j'', hp'⟩
            rw [at_j] at at_j''
            obtain rfl := Option.some.inj at_j''
            rw [Pass.isWaiting_eq_false hp'] at hp
            cases hp
          · obtain ⟨b, stage⟩ := q
            cases stage with
            | queued => cases hq
            | entered | resolving | leaving | ended => rfl
      · cases h
  | update | request | requestNow | cancel | close | drop | abandon => cases h

/-! ## Runs -/

/-- All requests that were folded are counted. -/
theorem coalesced_run (s : Session) (actions : List Action) :
    (s.run actions).gate.coalesced
      = s.gate.coalesced + UInt64.ofNat ((s.outcomes actions).count .coalesced) := by
  induction actions generalizing s with
  | nil => exact (UInt64.add_zero _).symm
  | cons a rest ih =>
      rw [run_cons, ih, coalesced_perform, outcomes, List.count_append, UInt64.ofNat_add,
        UInt64.add_assoc]

/-- In an open session every scheduled pass is waiting or has taken the lock. -/
theorem waiting_run {s : Session} {actions : List Action}
    (isOpen : (s.run actions).closed = false) :
    (s.admissions actions).length + (s.run actions).waiting
      = (s.outcomes actions).count .scheduled + s.waiting := by
  induction actions generalizing s with
  | nil => rfl
  | cons a rest ih =>
      have hrest := ih isOpen
      have hfirst := waiting_perform (isOpen_of_run isOpen)
      rw [run_cons, admissions, outcomes, List.length_append, List.count_append]
      omega

/-- Every request has an outcome. -/
theorem length_outcomes (s : Session) (actions : List Action) :
    (s.outcomes actions).length = actions.countP Action.isRequest := by
  induction actions generalizing s with
  | nil => rfl
  | cons a rest ih =>
      rw [outcomes, List.length_append, ih, List.countP_cons, Nat.add_comm]
      unfold outcome?
      split <;> rfl

/-- A request is scheduled, folded or refused. -/
theorem length_eq_counts (outcomes : List RequestOutcome) :
    outcomes.length
      = outcomes.count .scheduled + outcomes.count .coalesced + outcomes.count .closed := by
  induction outcomes with
  | nil => rfl
  | cons outcome rest ih =>
      cases outcome <;> simp [ih] <;> omega

/-- No request is refused while the session is open. -/
theorem count_closed_outcomes {s : Session} {actions : List Action}
    (isOpen : (s.run actions).closed = false) : (s.outcomes actions).count .closed = 0 := by
  induction actions generalizing s with
  | nil => rfl
  | cons a rest ih =>
      have hopen : s.closed = false := isOpen_of_run isOpen
      have hfirst : (s.outcome? a).toList.count .closed = 0 := by
        simp only [outcome?, request, hopen, Bool.false_eq_true, if_false]
        split
        · split <;> rfl
        · rfl
      rw [outcomes, List.count_append, hfirst, ih isOpen]

/-- A pass that is past the lock does not take it in a run. -/
theorem Past.not_mem_admissions {s : Session} {i : Nat} (h : s.Past i) (actions : List Action) :
    i ∉ s.admissions actions := by
  induction actions generalizing s with
  | nil => exact List.not_mem_nil
  | cons a rest ih =>
      rw [admissions, List.mem_append, Option.mem_toList, not_or]
      exact ⟨fun hadmit => (past_of_admitted hadmit).1 h, ih (h.perform a)⟩

/-- No pass takes the lock twice. -/
theorem nodup_admissions (s : Session) (actions : List Action) : (s.admissions actions).Nodup := by
  induction actions generalizing s with
  | nil => exact .nil
  | cons a rest ih =>
      rw [admissions]
      cases hadmit : s.admitted? a with
      | none => exact ih _
      | some i =>
          -- the pass that takes the lock now is past it for the rest of the run
          have hpast := (past_of_admitted hadmit).2
          exact List.nodup_cons.mpr ⟨hpast.not_mem_admissions rest, ih _⟩

/-! ## The queue -/

/-- What it means that the gate of a session is a queue of one, after a run from `s`. -/
structure QueueOfOne (s : Session) (actions : List Action) : Prop where
  /-- At most one pass is between taking the lock and releasing it. -/
  inside : (s.run actions).inside ≤ 1
  /-- While the session is open, the flag is set exactly as long as one scheduled pass waits. -/
  flag : (s.run actions).closed = false →
    ((s.run actions).gate.pending = true ↔ (s.run actions).waiting = 1) ∧
    ((s.run actions).gate.pending = false ↔ (s.run actions).waiting = 0)
  /-- Every request is answered: it is a new pass, counted as folded into one, or refused. The
  counter is a 64-bit word, and so the numbers are compared as such words. -/
  answered : UInt64.ofNat (actions.countP Action.isRequest)
    = UInt64.ofNat ((s.outcomes actions).count .scheduled) + (s.run actions).gate.coalesced
      + UInt64.ofNat ((s.outcomes actions).count .closed)
  /-- As long as the counter has not wrapped around, the numbers themselves agree. -/
  exactly : (s.outcomes actions).count .coalesced < UInt64.size →
    actions.countP Action.isRequest
      = (s.outcomes actions).count .scheduled + (s.run actions).gate.coalesced.toNat
        + (s.outcomes actions).count .closed
  /-- No request is refused while the session is open. -/
  accepted : (s.run actions).closed = false → (s.outcomes actions).count .closed = 0
  /-- No pass takes the lock twice. -/
  once : (s.admissions actions).Nodup
  /-- While the session is open, every scheduled pass has taken the lock or is the one that
  waits. -/
  passed : (s.run actions).closed = false →
    (s.admissions actions).length + (s.run actions).waiting
      = (s.outcomes actions).count .scheduled

/-- **The gate is a queue of one.** Let anything happen to a new session. One pass at a time has
the lock and one more may wait for it, with the flag set for as long. All requests and all
scheduled passes are accounted for. -/
theorem queueOfOne_create (cwd : Path) (id : Uuid) (name : String) (request : OpenRequest)
    (options : CompilationOptions) (overrides : List (String × String)) (actions : List Action) :
    (create cwd id name request options overrides).QueueOfOne actions := by
  have hgate := Reachable.gateKept ⟨cwd, id, name, request, options, overrides, actions, rfl⟩
  have hnew : (create cwd id name request options overrides).waiting = 0 ∧
      (create cwd id name request options overrides).gate.coalesced = 0 := ⟨rfl, rfl⟩
  generalize create cwd id name request options overrides = s at *
  have hfolded : (s.run actions).gate.coalesced
      = UInt64.ofNat ((s.outcomes actions).count .coalesced) := by
    rw [coalesced_run, hnew.2, UInt64.zero_add]
  have hanswered := (length_outcomes s actions).symm.trans (length_eq_counts (s.outcomes actions))
  refine ⟨hgate.inside_le_one, ?_, ?_, ?_, count_closed_outcomes, nodup_admissions _ _, ?_⟩
  · -- as many passes wait as the flag says, which is none or one
    intro isOpen
    have hwaiting := hgate.waiting isOpen
    rw [waiting, hwaiting]
    cases Gate.pending _ <;> decide
  · rw [hanswered, hfolded, UInt64.ofNat_add, UInt64.ofNat_add]
  · intro few
    rw [hanswered, hfolded, UInt64.toNat_ofNat_of_lt' few]
  · intro isOpen
    rw [waiting_run isOpen, hnew.1, Nat.add_zero]

/-- Two requests come in before the first pass takes the lock, and two while it is at work. -/
def fourRequests : List Action :=
  [.request, .request, .step 0 default [] default, .request, .request]

/-- Two of the four requests are passes, one with the lock and one that waits, and two are
folded. -/
theorem fourRequests_queueOfOne :
    draft.QueueOfOne fourRequests ∧ (draft.run fourRequests).closed = false ∧
    draft.outcomes fourRequests = [.scheduled, .coalesced, .scheduled, .coalesced] ∧
    (draft.run fourRequests).gate.coalesced = 2 ∧
    draft.admissions fourRequests = [0] ∧ (draft.run fourRequests).waiting = 1 :=
  ⟨queueOfOne_create _ _ _ _ _ _ fourRequests, by decide, by decide, by decide, by decide,
    by decide⟩

end Session

end ScriptSessions
