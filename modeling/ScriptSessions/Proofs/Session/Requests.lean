import ScriptSessions.Proofs.Session.Edits
import ScriptSessions.Proofs.Session.Gate

set_option autoImplicit false

/-! # No request is lost

A request that is accepted is answered by a scheduled pass that has yet to read the text: a new
one, or the one that waits. Such a pass *will store* a version: it has not read the text, or
what it has read is at least as new as that version. From the request on there is such a pass,
or the findings of a pass of this kind are stored (`Answers`), however the steps of the passes
and the updates are interleaved. Once nothing is under way, the findings are stored.

A pass that reads an old text before the request may be at work meanwhile. It cannot spoil the
stored findings later, for the lock lets only one pass in at a time.
-/

namespace ScriptSessions

namespace Pass

/-- Whether a scheduled pass is bound to store findings for a version of the text or a newer
one, as long as the session is open. -/
def WillStore (v : UInt64) (p : Pass) : Prop :=
  p.scheduled = true ∧
    (p.stage = .queued ∨ p.stage = .entered ∨ ∃ u, p.version? = some u ∧ v ≤ u)

/-- A move of a pass that will store a version brings it closer to that, or stores it. -/
theorem WillStore.move {v : UInt64} {s t : Session} {p q : Pass} (hp : p.WillStore v)
    (newer : v ≤ s.snapshot.version) (isOpen : s.closed = false) (h : p.Move s q t) :
    q.WillStore v ∨ v ≤ t.findings.textVersion ∧ q.isInside = true ∧ q.version? = none := by
  obtain ⟨hscheduled, hstage⟩ := hp
  cases h with
  | idle => exact .inl ⟨hscheduled, hstage⟩
  | enter => exact .inl ⟨hscheduled, .inr (.inl rfl)⟩
  | turnBack b free isClosed => rw [isOpen] at isClosed; cases isClosed
  | read =>
      -- the text is read after the request, so it is at least as new
      exact .inl ⟨hscheduled, .inr (.inr ⟨_, rfl, newer⟩)⟩
  | look b w others c d rest found fetch =>
      rcases hstage with hq | he | ⟨u, hu, hle⟩
      · cases hq
      · cases he
      · have hlook := (look_eq b w others c s d rest found fetch).2.2
        exact .inl ⟨hscheduled, .inr (.inr ⟨u, hlook.trans hu, hle⟩)⟩
  | commit b found fetch =>
      rcases hstage with hq | he | ⟨u, hu, hle⟩
      · cases hq
      · cases he
      · rw [Session.commit_of_open isOpen]
        cases hu
        exact .inr ⟨hle, rfl, rfl⟩
  | leave b report =>
      rcases hstage with hq | he | ⟨u, hu, -⟩
      · cases hq
      · cases he
      · cases hu
  | stop _ _ why =>
      -- a scheduled pass is dropped only with its session
      rw [why hscheduled] at isOpen
      cases isOpen

theorem willStore_of_isWaiting {p : Pass} (h : p.isWaiting = true) (v : UInt64) :
    p.WillStore v := by
  obtain ⟨b, stage⟩ := p
  simp only [isWaiting, Bool.and_eq_true] at h
  refine ⟨h.1, .inl ?_⟩
  cases stage with
  | queued => rfl
  | entered | resolving | leaving | ended => cases h.2

end Pass

namespace Session

/-- Whether findings for a version of the text or a newer one are stored, and stay so: no pass
that is at work has read an older text. -/
structure Stored (v : UInt64) (s : Session) : Prop where
  stored : v ≤ s.findings.textVersion
  read : ∀ p ∈ s.passes, ∀ u, p.version? = some u → v ≤ u

theorem Stored.move {v : UInt64} {s t : Session} {p q : Pass} {i : Nat} (hs : s.Stored v)
    (asked : v ≤ s.snapshot.version) (at_i : s.passes[i]? = some p) (h : p.Move s q t) :
    (t.setPass i q).Stored v := by
  have hread := hs.read p (List.mem_of_getElem? at_i)
  have hstored := h.stored_version
  have hq := fun u => h.read_version (v := u)
  obtain ⟨gate, findings, rfl⟩ := h.frame
  constructor
  · rcases hstored with hsame | hfound
    · exact hsame.symm ▸ hs.stored
    · exact hread _ hfound
  · intro r hr u hu
    rcases List.mem_or_eq_of_mem_set hr with hmem | rfl
    · exact hs.read r hmem u hu
    · rcases hq u hu with hsame | rfl
      · exact hread u hsame
      · exact asked

/-- A pass that comes in reads the text later, so it does not matter. -/
theorem Stored.ask {v : UInt64} {s t : Session} (hs : s.Stored v) (b : Bool)
    (findings : t.findings = s.findings) (passes : t.passes = s.passes ++ [⟨b, .queued⟩]) :
    t.Stored v := by
  constructor
  · rw [findings]
    exact hs.stored
  · intro p hp u hu
    rw [passes] at hp
    rcases List.mem_append.mp hp with hmem | hnew
    · exact hs.read p hmem u hu
    · rw [List.mem_singleton.mp hnew] at hu
      cases hu

/-- Whether a request made for a version is answered, or bound to be: as long as the session is
open, some pass will store that version, or it is stored. -/
structure Answers (v : UInt64) (s : Session) : Prop where
  asked : v ≤ s.snapshot.version
  answer : s.closed = false → (∃ p ∈ s.passes, p.WillStore v) ∨ s.Stored v

/-- While a pass is inside that has not read the text or has done its work, no other pass has
read the text. -/
theorem version?_eq_none_of_isInside {s : Session} (gate : s.GateKept) {p q : Pass} {i : Nat}
    (at_i : s.passes[i]? = some q) (hq : q.isInside = true) (hread : q.version? = none)
    (hp : p ∈ s.passes) : p.version? = none := by
  cases hv : p.version? with
  | none => rfl
  | some u =>
      obtain ⟨j, at_j⟩ := List.mem_iff_getElem?.mp hp
      have hij := eq_of_countP_le_one gate.inside_le_one at_i at_j hq (Pass.isInside_of_version? hv)
      rw [← hij, at_i] at at_j
      rw [← Option.some.inj at_j, hread] at hv
      cases hv

theorem Answers.move {v : UInt64} {s t : Session} {p q : Pass} {i : Nat} (hs : s.Answers v)
    (gate : s.GateKept) (at_i : s.passes[i]? = some p) (h : p.Move s q t) :
    (t.setPass i q).Answers v := by
  have gate' := gate.move at_i h
  have hwill := fun hp hopen => Pass.WillStore.move (v := v) hp hs.asked hopen h
  have hstored := fun hv : s.Stored v => hv.move hs.asked at_i h
  obtain ⟨gate, findings, rfl⟩ := h.frame
  have hi := (List.getElem?_eq_some_iff.mp at_i).1
  have at_i' : (s.passes.set i q)[i]? = some q := List.getElem?_set_self hi
  refine ⟨hs.asked, ?_⟩
  intro isOpen
  rcases hs.answer isOpen with ⟨r, hr, hwaits⟩ | hanswered
  · obtain ⟨j, at_j⟩ := List.mem_iff_getElem?.mp hr
    by_cases hij : i = j
    · -- the pass that will store the version has moved
      rw [hij, at_j] at at_i
      rcases hwill (Option.some.inj at_i ▸ hwaits) isOpen with hnext | ⟨hle, hinside, hnone⟩
      · exact .inl ⟨q, List.mem_of_getElem? at_i', hnext⟩
      · -- it has stored its findings, and is still the only one inside
        refine .inr ⟨hle, ?_⟩
        intro r' hr' u hu
        rw [version?_eq_none_of_isInside gate' at_i' hinside hnone hr'] at hu
        cases hu
    · -- another pass has moved
      have at_j' : (s.passes.set i q)[j]? = some r := by rw [List.getElem?_set_ne hij, at_j]
      exact .inl ⟨r, List.mem_of_getElem? at_j', hwaits⟩
  · exact .inr (hstored hanswered)

theorem Answers.perform {v : UInt64} {s : Session} (hs : s.Answers v) (gate : s.GateKept)
    (a : Action) : (s.perform a).Answers v := by
  have h := s.effect_perform a
  generalize s.perform a = t at h
  cases h with
  | idle => exact hs
  | update next isOpen base newer =>
      refine ⟨UInt64.le_trans hs.asked (UInt64.le_of_lt newer), ?_⟩
      intro hopen
      exact (hs.answer hopen).imp_right fun hstored => ⟨hstored.stored, hstored.read⟩
  | fold =>
      refine ⟨hs.asked, ?_⟩
      intro hopen
      exact (hs.answer hopen).imp_right fun hstored => ⟨hstored.stored, hstored.read⟩
  | schedule | requestNow =>
      refine ⟨hs.asked, ?_⟩
      intro hopen
      rcases hs.answer hopen with ⟨p, hp, hwaits⟩ | hstored
      · exact .inl ⟨p, List.mem_append_left _ hp, hwaits⟩
      · exact .inr (hstored.ask _ rfl rfl)
  | cancel | close => exact ⟨hs.asked, nofun⟩
  | move _ i p q t at_i h => exact hs.move gate at_i h

theorem Answers.run {v : UInt64} {s : Session} (hs : s.Answers v) (gate : s.GateKept)
    (actions : List Action) : (s.run actions).Answers v := by
  induction actions generalizing s with
  | nil => exact hs
  | cons a rest ih => exact ih (hs.perform gate a) (gate.perform a)

/-- A request that is accepted will be answered. -/
theorem answers_request {s : Session} (gate : s.GateKept)
    (accepted : s.request.1 = .scheduled ∨ s.request.1 = .coalesced) :
    s.request.2.Answers s.snapshot.version := by
  unfold request at accepted ⊢
  by_cases hc : s.closed = true
  · rw [if_pos hc] at accepted
    rcases accepted with h | h
    · cases h
    · cases h
  rw [if_neg hc]
  split
  · next hpending =>
      have hpos : 0 < s.passes.countP Pass.isWaiting := by
        rw [gate.waiting (by simpa using hc), hpending]
        decide
      obtain ⟨p, hp, hwaits⟩ := List.countP_pos_iff.mp hpos
      exact ⟨UInt64.le_refl _, fun _ => .inl ⟨p, hp, Pass.willStore_of_isWaiting hwaits _⟩⟩
  · refine ⟨UInt64.le_refl _, fun _ => .inl ⟨⟨true, .queued⟩, ?_, rfl, .inl rfl⟩⟩
    exact List.mem_append_right _ (List.mem_singleton_self _)

/-! ## Requests are answered -/

/-- Nothing is under way: no scheduled pass waits, and no pass is at work. -/
def Quiet (s : Session) : Prop := ∀ p ∈ s.passes, p.isWaiting = false ∧ p.isInside = false

instance (s : Session) : Decidable s.Quiet := by unfold Quiet; infer_instance

/-- While nothing is under way in an open session, an answered request has its findings. -/
theorem Answers.stored {v : UInt64} {s : Session} (h : s.Answers v) (isOpen : s.closed = false)
    (quiet : s.Quiet) : v ≤ s.findings.textVersion := by
  rcases h.answer isOpen with ⟨p, hp, hscheduled, hstage⟩ | hstored
  · obtain ⟨hwaiting, hinside⟩ := quiet p hp
    rcases hstage with hq | he | ⟨u, hu, -⟩
    · simp [Pass.isWaiting, Pass.isQueued, hscheduled, hq] at hwaiting
    · simp [Pass.isInside, he] at hinside
    · rw [Pass.isInside_of_version? hu] at hinside
      cases hinside
  · exact hstored.stored

/-- **No request is lost.** Let a request be accepted, as a new pass or folded into the one
that waits, and let anything happen after it. Whenever the session is open and nothing is under
way, its findings are those of the text of the request or of a newer one. If the text has not
changed since the request, they are those of the text. -/
theorem request_answered (s : Session) (reachable : s.Reachable)
    (accepted : s.request.1 = .scheduled ∨ s.request.1 = .coalesced) (actions : List Action)
    (isOpen : (s.request.2.run actions).closed = false)
    (quiet : (s.request.2.run actions).Quiet) :
    s.snapshot.version ≤ (s.request.2.run actions).findings.textVersion ∧
    ((s.request.2.run actions).snapshot.version = s.snapshot.version →
      (s.request.2.run actions).findings.textVersion
        = (s.request.2.run actions).snapshot.version) := by
  have hanswers := (answers_request reachable.gateKept accepted).run
    (reachable.gateKept.perform .request) actions
  have hversions := (reachable.run (.request :: actions)).versionsKept
  have hle := hanswers.stored isOpen quiet
  refine ⟨hle, fun hsame => UInt64.le_antisymm hversions.stored ?_⟩
  rw [hsame]
  exact hle

/-- The session `draft` while a pass is at work on its first text. The text has been changed
meanwhile, and a pass that was asked for after the change waits. -/
def busyDraft : Session := draft.run
  [.requestNow, .step 0 default [] default, .step 0 default [] default,
    .update (draft.snapshot.withText "changed"), .request]

/-- The actions that bring the two passes of `busyDraft` to their end. -/
def finishBoth : List Action :=
  List.replicate 2 (.step 0 default [] default) ++ List.replicate 4 (.step 1 default [] default)

/-- A request folded into the waiting pass of `busyDraft` is answered by findings for the changed
text, though the pass that was at work stores those for the first text. -/
theorem busyDraft_request_answered :
    busyDraft.request.1 = .coalesced ∧ (busyDraft.request.2.run finishBoth).Quiet ∧
    busyDraft.snapshot.version = 1 ∧
    (busyDraft.request.2.run finishBoth).findings.textVersion
      = (busyDraft.request.2.run finishBoth).snapshot.version :=
  have hquiet : (busyDraft.request.2.run finishBoth).Quiet := by decide
  ⟨by decide, hquiet, by decide,
    (request_answered busyDraft ⟨_, _, _, _, _, _, _, rfl⟩ (.inr (by decide)) finishBoth
      (by decide) hquiet).2 (by decide)⟩

end Session

end ScriptSessions
