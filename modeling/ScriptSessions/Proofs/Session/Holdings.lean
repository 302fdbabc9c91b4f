import ScriptSessions.Proofs.Lists
import ScriptSessions.Proofs.Session.Closing

set_option autoImplicit false

/-! # What a session holds of the cache

The passes of a session wait for fetches, and they collect entries until these are stored as the
findings of the session. A step of a pass does one of three things to the cache: nothing, begin a
fetch, or one step of the fetch that it waits for (`Pass.fetch_step`). An entry comes to a session
only as the result of a fetch (`Pass.Move.entries`). Nothing else that happens to a session
begins a fetch or brings an entry (`Session.holdsLess_perform`).
-/

namespace ScriptSessions

open Reference

/-! ## Passes -/

namespace Pass

/-- The entries that a pass has found and not stored. -/
def entries (p : Pass) : List Entry :=
  match p.stage with
  | .resolving _ found _ => found.references
  | _ => []

/-- What a step of a pass does with its fetch. -/
theorem fetch_step (w : World) (others : List Fetch) (c : Cache) (s : Session) (p : Pass) :
    ((p.step w others c s).2.2 = c ∧
        ((p.step w others c s).1.fetch? = none ∨
          p.fetch? = none ∧
            ∃ location, (p.step w others c s).1.fetch? = some (.start location))) ∨
      ∃ f, p.fetch? = some f ∧ (p.step w others c s).1.fetch? = some (f.step w others c).1 ∧
        (p.step w others c s).2.2 = (f.step w others c).2 := by
  obtain ⟨b, stage⟩ := p
  cases stage with
  | queued =>
      refine .inl ⟨rfl, .inl ?_⟩
      simp only [step, enter]
      split
      · rfl
      · cases s.closed <;> rfl
  | entered => exact .inl ⟨rfl, .inl rfl⟩
  | resolving todo found fetch =>
      cases todo with
      | nil => exact .inl ⟨rfl, .inl rfl⟩
      | cons d rest =>
          cases hk : d.kind with
          | load => simp [step, stepDirective, hk, fetch?]
          | reference =>
              cases fetch with
              | none =>
                  cases hl : s.resolver.location d.value with
                  | error e => simp [step, stepDirective, hk, hl, fetch?]
                  | ok location => simp [step, stepDirective, hk, hl, fetch?]
              | some f =>
                  cases hf : f.result? with
                  | some result => simp [step, stepDirective, hk, hf, fetch?]
                  | none => simp [step, stepDirective, hk, hf, fetch?]
  | leaving => exact .inl ⟨rfl, .inl rfl⟩
  | ended => exact .inl ⟨rfl, .inl rfl⟩

/-- Accounting for a reference adds no entry but the one that it resolved to. -/
theorem mem_addReference {found : Findings} {d : Directive} {result : Except Error Entry}
    {e : Entry} (h : e ∈ (found.addReference d result).references) :
    e ∈ found.references ∨ result = .ok e := by
  cases result with
  | error => exact .inl h
  | ok e' =>
      simp only [Findings.addReference, Findings.addEntry] at h
      split at h
      · exact .inl h
      · rcases List.mem_append.mp h with hold | hnew
        · exact .inl hold
        · exact .inr (by rw [List.mem_singleton.mp hnew])

theorem references_addScript (found : Findings) (d : Directive) (path : Path) (isThere : Bool) :
    (found.addScript d path isThere).references = found.references := by
  cases isThere <;> rfl

/-- Looking at a directive brings no entry but the result of the fetch. -/
theorem mem_stepDirective {w : World} {others : List Fetch} {c : Cache} {s : Session} {b : Bool}
    {d : Directive} {rest : List Directive} {found : Findings} {fetch : Option Fetch} {e : Entry}
    (h : e ∈ entries ⟨b, (stepDirective w others c s d rest found fetch).1⟩) :
    e ∈ found.references ∨ ∃ f, fetch = some f ∧ f.result? = some (.ok e) := by
  unfold stepDirective at h
  split at h
  · simp only [entries, references_addScript] at h
    exact .inl h
  · split at h
    · exact .inl h
    · exact .inl h
  · next f _ =>
      split at h
      · next result hf =>
          rcases mem_addReference h with hold | rfl
          · exact .inl hold
          · exact .inr ⟨f, rfl, hf⟩
      · exact .inl h

/-- An entry that a pass holds after an action, or has stored, was there before or is the result
of the fetch that the pass was waiting for. -/
theorem Move.entries {s t : Session} {p q : Pass} (h : p.Move s q t) {e : Entry}
    (he : e ∈ q.entries ∨ e ∈ t.findings.references) :
    e ∈ p.entries ∨ e ∈ s.findings.references ∨
      ∃ f, p.fetch? = some f ∧ f.result? = some (.ok e) := by
  cases h with
  | idle => exact he.imp_right .inl
  | enter | turnBack | read | leave => exact he.elim nofun fun hs => .inr (.inl hs)
  | look b w others c d rest found fetch =>
      rcases he with hq | hs
      · exact (mem_stepDirective hq).imp_right .inr
      · exact .inr (.inl hs)
  | commit b found fetch =>
      rcases he with hq | hs
      · cases hq
      · simp only [Session.commit] at hs
        split at hs
        · exact .inr (.inl hs)
        · exact .inl hs
  | stop =>
      rcases he with hq | hs
      · cases hq
      · split at hs
        · exact .inr (.inl hs)
        · exact .inr (.inl hs)

end Pass

/-! ## Sessions -/

namespace Session

/-- The fetches that the passes of a session wait for. -/
def fetches (s : Session) : List Fetch := s.passes.filterMap Pass.fetch?

/-- The same without the pass with the given number. -/
def fetchesBeside (s : Session) (i : Nat) : List Fetch :=
  (s.passes.eraseIdx i).filterMap Pass.fetch?

/-- The entries that a session and its passes have found. -/
def entries (s : Session) : List Entry :=
  s.findings.references ++ s.passes.flatMap Pass.entries

/-- A session holds no more of the cache than another one. -/
structure HoldsLess (t s : Session) : Prop where
  fetches : t.fetches.Sublist s.fetches
  entries : t.entries ⊆ s.entries

theorem holdsLess_of_eq {s t : Session} (passes : t.passes = s.passes)
    (findings : t.findings = s.findings) : t.HoldsLess s := by
  constructor
  · rw [Session.fetches, Session.fetches, passes]
  · intro e he
    rw [Session.entries, passes, findings] at he
    exact he

/-- A pass that has not begun holds nothing. -/
theorem holdsLess_of_ask {s t : Session} {b : Bool} (passes : t.passes = s.passes ++ [⟨b, .queued⟩])
    (findings : t.findings = s.findings) : t.HoldsLess s := by
  constructor
  · rw [Session.fetches, Session.fetches, passes, List.filterMap_append]
    simp [Pass.fetch?]
  · rw [Session.entries, Session.entries, passes, findings, List.flatMap_append]
    simp [Pass.entries]

/-- A pass that is stopped holds nothing any more. -/
theorem holdsLess_of_stop {s t : Session} {i : Nat} {p : Pass} (at_i : s.passes[i]? = some p)
    (passes : t.passes = s.passes.set i ⟨p.scheduled, .ended none⟩)
    (findings : t.findings = s.findings) : t.HoldsLess s := by
  constructor
  · rw [Session.fetches, Session.fetches, passes, List.filterMap_eq_flatMap_toList,
      List.filterMap_eq_flatMap_toList]
    exact flatMap_set_sublist _ at_i (List.nil_sublist _)
  · rw [Session.entries, Session.entries, passes, findings]
    have hless : (s.passes.set i ⟨p.scheduled, .ended none⟩).flatMap Pass.entries |>.Sublist
        (s.passes.flatMap Pass.entries) := flatMap_set_sublist _ at_i (List.nil_sublist _)
    exact (hless.append_left s.findings.references).subset

/-- Whatever happens to a session that is no step of a pass, the session holds no more of the
cache than before. -/
theorem holdsLess_perform (s : Session) (a : Action) (ha : a.isStep = false) :
    (s.perform a).HoldsLess s := by
  obtain ⟨hfindings, hsame | ⟨b, hask⟩ | ⟨i, p, at_i, hstop⟩⟩ := s.calm_perform ha
  · exact holdsLess_of_eq hsame hfindings
  · exact holdsLess_of_ask hask hfindings
  · exact holdsLess_of_stop at_i hstop hfindings

/-- What becomes of a session when one of its passes goes on: the pass takes a step, and if it is
just leaving, releases the lock without a break. New entries are results of its fetch. -/
theorem advancePass_eq (w : World) (others : List Fetch) (c : Cache) {s : Session} {i : Nat}
    {p : Pass} (at_i : s.passes[i]? = some p) :
    ∃ q t, s.advancePass w others c i = (t, (p.step w others c s).2.2) ∧
      t.passes = s.passes.set i q ∧ q.fetch? = (p.step w others c s).1.fetch? ∧
      ∀ e ∈ t.entries, e ∈ s.entries ∨ ∃ f, p.fetch? = some f ∧ f.result? = some (.ok e) := by
  have hstep := advancePass_of_step w others c at_i
  have hleaving (b : Bool) (report : Option Report)
      (hq : (p.step w others c s).1 = ⟨b, .leaving report⟩) :=
    advancePass_of_leaving w others c at_i hq
  have hmove := p.move_step w others c s
  have hpasses : (p.step w others c s).2.1.passes = s.passes := by
    obtain ⟨gate, findings, hframe⟩ := hmove.frame
    rw [hframe]
  generalize p.step w others c s = r at *
  obtain ⟨q, t, d⟩ := r
  change t.passes = s.passes at hpasses
  have hset (q' : Pass) : (t.setPass i q').passes = s.passes.set i q' := by
    rw [setPass, hpasses]
  have hentries (u : Session) (q' : Pass) (passes : u.passes = s.passes.set i q')
      (findings : u.findings = t.findings) (hq : q'.entries = q.entries) :
      ∀ e ∈ u.entries, e ∈ s.entries ∨ ∃ f, p.fetch? = some f ∧ f.result? = some (.ok e) := by
    intro e he
    rw [Session.entries, passes, findings] at he
    have hnew (hnew : e ∈ q.entries ∨ e ∈ t.findings.references) :
        e ∈ s.entries ∨ ∃ f, p.fetch? = some f ∧ f.result? = some (.ok e) := by
      rcases hmove.entries hnew with hp | hs | hf
      · exact .inl (List.mem_append_right _
          (List.mem_flatMap.mpr ⟨p, List.mem_of_getElem? at_i, hp⟩))
      · exact .inl (List.mem_append_left _ hs)
      · exact .inr hf
    rcases List.mem_append.mp he with hstored | hheld
    · exact hnew (.inr hstored)
    · obtain ⟨r, hr, her⟩ := List.mem_flatMap.mp hheld
      rcases List.mem_or_eq_of_mem_set hr with hmem | rfl
      · exact .inl (List.mem_append_right _ (List.mem_flatMap.mpr ⟨r, hmem, her⟩))
      · exact hnew (.inl (hq ▸ her))
  obtain ⟨b, stage⟩ := q
  cases stage with
  | leaving report =>
      have hended : (t.unlock.setPass i ⟨b, .ended report⟩).passes
          = s.passes.set i ⟨b, .ended report⟩ := hset _
      exact ⟨_, _, hleaving b report rfl, hended, rfl, hentries _ _ hended rfl rfl⟩
  | queued | entered | resolving | ended =>
      exact ⟨_, _, hstep rfl, hset _, rfl, hentries _ _ (hset _) rfl rfl⟩

end Session

end ScriptSessions
