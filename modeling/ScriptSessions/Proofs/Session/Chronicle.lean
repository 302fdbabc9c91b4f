import Mathlib.Data.List.Nodup
import ScriptSessions.Proofs.Session.Closing
import ScriptSessions.Proofs.Session.Edits
import ScriptSessions.Proofs.Session.Gate
import ScriptSessions.Proofs.Session.Outcomes

set_option autoImplicit false

/-! # The chronicle of a session

A chronicle writes down from outside what happens to a session: the snapshots that it has, the
requests that its passes settle, and the findings that they store. A pass reads the text when it has
the lock, and stores what it has found much later; updates, requests and other passes go on in
between. Nevertheless all that is ever stored is the whole outcome of one pass over one text, and
nothing is stored over something newer (`Chronicle.Faithful`).

What a pass does in one turn is said by `Pass.Stride`. A pass that is among the directives knows
three things (`Chronicle.Tells`): what it has found is what it has settled so far, the text that it
has read is not older than what is stored, and it has stored nothing. The second of them is where
the lock comes in. Another pass that stored something newer would have to be inside as well.
-/

namespace ScriptSessions

open Reference

/-! ## What a pass settles -/

/-- The outcome to which a pass comes when it looks at a request, given the fetch that is under way.
There is none as long as the fetch is not over. -/
def Resolver.outcome? (w : World) (r : Resolver) (d : Directive) (fetch : Option Fetch) :
    Option Outcome :=
  match d.kind, fetch with
  | .load, _ =>
    let path := r.scriptPath d.value
    some (if w.isFile path then .loaded path else .missing path)
  | .reference, none =>
    match r.location d.value with
    | .error reason => some (.unresolved reason)
    | .ok _ => none
  | .reference, some f => f.result?.map Outcome.ofResult

theorem Resolver.kind_outcome? {w : World} {r : Resolver} {d : Directive} {fetch : Option Fetch}
    {o : Outcome} (h : r.outcome? w d fetch = some o) : o.kind = d.kind := by
  unfold outcome? at h
  split at h
  · next hk =>
      rw [hk, ← Option.some.inj h]
      cases w.isFile (r.scriptPath d.value) <;> rfl
  · next hk =>
      rw [hk]
      split at h
      · rw [← Option.some.inj h]; rfl
      · cases h
  · next hk =>
      rw [hk]
      obtain ⟨result, -, rfl⟩ := Option.map_eq_some_iff.mp h
      cases result <;> rfl

namespace Pass

/-- The request that a pass settles when it goes on, with its outcome. -/
def settles? (w : World) (s : Session) (p : Pass) : Option (Directive × Outcome) :=
  match p.stage with
  | .resolving (d :: _) _ fetch => (s.resolver.outcome? w d fetch).map (d, ·)
  | _ => none

/-- A pass that looks at a directive records the outcome to which it comes, or goes on looking. -/
theorem stepDirective_outcome (w : World) (others : List Fetch) (c : Cache) (s : Session)
    (d : Directive) (rest : List Directive) (found : Findings) (fetch : Option Fetch) :
    (∃ o, s.resolver.outcome? w d fetch = some o ∧
      (stepDirective w others c s d rest found fetch).1
        = .resolving rest (found.record (d, o)) none) ∨
    s.resolver.outcome? w d fetch = none ∧
      ∃ fetch', (stepDirective w others c s d rest found fetch).1
        = .resolving (d :: rest) found fetch' := by
  cases hk : d.kind with
  | load =>
      refine .inl ⟨_, by simp only [Resolver.outcome?, hk]; rfl, ?_⟩
      simp only [stepDirective, hk]
      cases w.isFile (s.resolver.scriptPath d.value) <;> rfl
  | reference =>
      cases fetch with
      | none =>
          cases hl : s.resolver.location d.value with
          | error reason =>
              exact .inl ⟨.unresolved reason, by simp only [Resolver.outcome?, hk, hl],
                by simp only [stepDirective, hk, hl, Findings.record]⟩
          | ok location =>
              exact .inr ⟨by simp only [Resolver.outcome?, hk, hl], some (.start location),
                by simp only [stepDirective, hk, hl]⟩
      | some f =>
          cases hf : f.result? with
          | some result =>
              refine .inl ⟨Outcome.ofResult result, by simp [Resolver.outcome?, hk, hf], ?_⟩
              simp only [stepDirective, hk, hf]
              cases result <;> rfl
          | none =>
              exact .inr ⟨by simp [Resolver.outcome?, hk, hf], some (f.step w others c).1,
                by simp only [stepDirective, hk, hf]⟩

/-! ## One turn of a pass -/

/-- What a pass does in one turn: `Stride w s p q t` says that on the files `w` the pass `p` of the
session `s` may become `q` while the session becomes `t`. -/
inductive Stride (w : World) (s : Session) : Pass → Pass → Session → Prop where
  /-- The lock is taken. -/
  | wait (b : Bool) : Stride w s ⟨b, .queued⟩ ⟨b, .queued⟩ s
  /-- The pass takes the lock of an open session. -/
  | enter (b : Bool) : Stride w s ⟨b, .queued⟩ ⟨b, .entered⟩ (s.lock b)
  /-- The pass takes the lock, finds the session closed, and releases the lock. -/
  | turnBack (b : Bool) : Stride w s ⟨b, .queued⟩ ⟨b, .ended none⟩ (s.lock b).unlock
  /-- The pass reads the snapshot. -/
  | read (b : Bool) : Stride w s ⟨b, .entered⟩ ⟨b, readSnapshot s⟩ s
  /-- The pass settles a request. -/
  | settle (b : Bool) (d : Directive) (rest : List Directive) (found : Findings)
      (fetch : Option Fetch) (o : Outcome) (h : s.resolver.outcome? w d fetch = some o) :
      Stride w s ⟨b, .resolving (d :: rest) found fetch⟩
        ⟨b, .resolving rest (found.record (d, o)) none⟩ s
  /-- The pass goes on looking at a directive. -/
  | look (b : Bool) (d : Directive) (rest : List Directive) (found : Findings)
      (fetch fetch' : Option Fetch) (h : s.resolver.outcome? w d fetch = none) :
      Stride w s ⟨b, .resolving (d :: rest) found fetch⟩
        ⟨b, .resolving (d :: rest) found fetch'⟩ s
  /-- The pass stores its findings, unless the session is closed, and releases the lock. -/
  | finish (b : Bool) (found : Findings) (fetch : Option Fetch) :
      Stride w s ⟨b, .resolving [] found fetch⟩ ⟨b, .ended (some (s.commit found).1)⟩
        (s.commit found).2.unlock
  /-- The pass is over. -/
  | rest (b : Bool) (report : Option Report) :
      Stride w s ⟨b, .ended report⟩ ⟨b, .ended report⟩ s

/-- A pass changes nothing of its session but the gate and the findings. -/
theorem Stride.frame {w : World} {s t : Session} {p q : Pass} (h : p.Stride w s q t) :
    t.passes = s.passes ∧ t.snapshot = s.snapshot := by
  cases h with
  | wait | enter | turnBack | read | settle | look | rest => exact ⟨rfl, rfl⟩
  | finish b found =>
      by_cases hc : s.closed = true
      · rw [(Session.commit_of_closed hc found).1]
        exact ⟨rfl, rfl⟩
      · rw [Session.commit_of_open (by simpa using hc)]
        exact ⟨rfl, rfl⟩

end Pass

namespace Session

/-- What becomes of a session when one of its passes goes on. -/
theorem stride_advancePass {s : Session} {i : Nat} {p : Pass} (at_i : s.passes[i]? = some p)
    (hp : p.isLeaving = false) (w : World) (others : List Fetch) (c : Cache) :
    ∃ q t, (s.advancePass w others c i).1 = t.setPass i q ∧ p.Stride w s q t := by
  have hstep := advancePass_of_step w others c at_i
  have hleaving {b : Bool} {report : Option Report}
      (hq : (p.step w others c s).1 = ⟨b, .leaving report⟩) :=
    advancePass_of_leaving w others c at_i hq
  obtain ⟨b, stage⟩ := p
  cases stage with
  | queued =>
      cases hl : s.gate.locked with
      | true =>
          have hone : Pass.step w others c s ⟨b, .queued⟩ = (⟨b, .queued⟩, s, c) := by
            simp [Pass.step, Pass.enter, hl]
          rw [hone] at hstep
          exact ⟨_, _, congrArg Prod.fst (hstep rfl), .wait b⟩
      | false =>
          cases hc : s.closed with
          | false =>
              have hone : Pass.step w others c s ⟨b, .queued⟩ = (⟨b, .entered⟩, s.lock b, c) := by
                simp [Pass.step, Pass.enter, hl, hc, lock]
              rw [hone] at hstep
              exact ⟨_, _, congrArg Prod.fst (hstep rfl), .enter b⟩
          | true =>
              have hone : Pass.step w others c s ⟨b, .queued⟩
                  = (⟨b, .leaving none⟩, s.lock b, c) := by
                simp [Pass.step, Pass.enter, hl, hc, lock]
              rw [hone] at hleaving
              exact ⟨_, _, congrArg Prod.fst (hleaving rfl), .turnBack b⟩
  | entered => exact ⟨_, _, congrArg Prod.fst (hstep rfl), .read b⟩
  | resolving todo found fetch =>
      cases todo with
      | nil => exact ⟨_, _, congrArg Prod.fst (hleaving rfl), .finish b found fetch⟩
      | cons d rest =>
          rcases Pass.stepDirective_outcome w others c s d rest found fetch with
            ⟨o, ho, hstage⟩ | ⟨ho, fetch', hstage⟩
          · have hone : (Pass.step w others c s ⟨b, .resolving (d :: rest) found fetch⟩).1
                = ⟨b, .resolving rest (found.record (d, o)) none⟩ := by
              simp only [Pass.step, hstage]
            rw [hone] at hstep
            exact ⟨_, _, congrArg Prod.fst (hstep rfl), .settle b d rest found fetch o ho⟩
          · have hone : (Pass.step w others c s ⟨b, .resolving (d :: rest) found fetch⟩).1
                = ⟨b, .resolving (d :: rest) found fetch'⟩ := by
              simp only [Pass.step, hstage]
            rw [hone] at hstep
            exact ⟨_, _, congrArg Prod.fst (hstep rfl), .look b d rest found fetch fetch' ho⟩
  | leaving report => cases hp
  | ended report => exact ⟨_, _, congrArg Prod.fst (hstep rfl), .rest b report⟩

/-! ## Passes by number -/

/-- How far the pass with the given number has come. A pass that has not been asked for is as one
that waits. -/
def stageAt (s : Session) (i : Nat) : Pass.Stage := (s.passes[i]?.map Pass.stage).getD .queued

/-- The report of the pass with the given number. -/
def report? (s : Session) (i : Nat) : Option Report := s.passes[i]?.bind Pass.report?

theorem stageAt_of_getElem? {s : Session} {i : Nat} {p : Pass} (at_i : s.passes[i]? = some p) :
    s.stageAt i = p.stage := by
  rw [stageAt, at_i]
  rfl

theorem exists_of_stageAt_resolving {s : Session} {i : Nat} {todo : List Directive}
    {found : Findings} {fetch : Option Fetch} (h : s.stageAt i = .resolving todo found fetch) :
    ∃ p, s.passes[i]? = some p ∧ p.isInside = true := by
  cases at_i : s.passes[i]? with
  | none =>
      rw [stageAt, at_i] at h
      cases h
  | some p =>
      rw [stageAt_of_getElem? at_i] at h
      exact ⟨p, rfl, by rw [Pass.isInside, h]⟩

theorem stageAt_setPass_self {s t : Session} {i : Nat} {p : Pass} (at_i : s.passes[i]? = some p)
    (passes : t.passes = s.passes) (q : Pass) : (t.setPass i q).stageAt i = q.stage := by
  have hi := (List.getElem?_eq_some_iff.mp at_i).1
  exact stageAt_of_getElem? (by rw [setPass, passes, List.getElem?_set_self hi])

theorem stageAt_setPass_ne {s t : Session} {i j : Nat} (h : i ≠ j) (passes : t.passes = s.passes)
    (q : Pass) : (t.setPass i q).stageAt j = s.stageAt j := by
  rw [stageAt, stageAt, setPass, passes, List.getElem?_set_ne h]

/-- A pass that has just been asked for changes no stage. -/
theorem stageAt_ask {s t : Session} {b : Bool} (passes : t.passes = s.passes ++ [⟨b, .queued⟩])
    (i : Nat) : t.stageAt i = s.stageAt i := by
  rw [stageAt, stageAt, passes, List.getElem?_append]
  split
  · rfl
  · next hi =>
      rw [List.getElem?_eq_none (Nat.le_of_not_lt hi)]
      cases i - s.passes.length <;> rfl

/-- What is no step of a pass leaves a pass where it is, or stops it. -/
theorem stageAt_perform (s : Session) {a : Action} (ha : a.isStep = false) (i : Nat) :
    (s.perform a).stageAt i = s.stageAt i ∨ (s.perform a).stageAt i = .ended none := by
  rcases (s.calm_perform ha).2 with hsame | ⟨b, hask⟩ | ⟨j, p, at_j, hstop⟩
  · exact .inl (by rw [stageAt, stageAt, hsame])
  · exact .inl (stageAt_ask hask i)
  · rw [stageAt, stageAt, hstop]
    by_cases hij : j = i
    · subst hij
      rw [List.getElem?_set_self (List.getElem?_eq_some_iff.mp at_j).1]
      exact .inr rfl
    · rw [List.getElem?_set_ne hij]
      exact .inl rfl

/-- The request that a pass settles when it goes on, with the number of the pass. -/
def settled? (w : World) (s : Session) (i : Nat) : Option (Nat × Directive × Outcome) :=
  (s.passes[i]?.bind (·.settles? w s)).map (i, ·)

/-- What is stored if the session `t` has come about by a turn of a pass of the session `s`: there
is something new if the number of the stored findings is another one. -/
def stored? (s t : Session) (i : Nat) : Option (Nat × Findings) :=
  if t.findings.number = s.findings.number then none else some (i, t.findings)

end Session

/-! ## Chronicles -/

/-- What has happened to a session, in order. -/
structure Chronicle where
  /-- The snapshots that the session has had. -/
  snapshots : List Snapshot := []
  /-- The requests that were settled, each with the number of the pass and the outcome. -/
  settled : List (Nat × Directive × Outcome) := []
  /-- The findings that were stored, each with the number of the pass. -/
  results : List (Nat × Findings) := []

namespace Chronicle

/-- The requests that a pass has settled. -/
def settledBy (c : Chronicle) (i : Nat) : List (Directive × Outcome) :=
  (c.settled.filter (·.1 == i)).map Prod.snd

/-- Whether a pass has stored findings. -/
def Stored (c : Chronicle) (i : Nat) : Prop := ∃ f, (i, f) ∈ c.results

/-- The chronicle of a session that has the snapshot. -/
def see (c : Chronicle) (x : Snapshot) : Chronicle := { c with snapshots := c.snapshots ++ [x] }

/-- The chronicle after the given requests have been settled and the given findings stored. -/
def write (c : Chronicle) (settled : Option (Nat × Directive × Outcome))
    (stored : Option (Nat × Findings)) : Chronicle :=
  { c with settled := c.settled ++ settled.toList, results := c.results ++ stored.toList }

/-- A chronicle whose session has come to `s` is as it should be. -/
structure Faithful (c : Chronicle) (s : Session) : Prop where
  /-- The results are numbered from one. Numbers are 64-bit words, so that of a result is its place
  modulo `UInt64.size`. -/
  numbered : c.results.map (fun r => r.2.number)
    = (List.range' 1 c.results.length).map UInt64.ofNat
  /-- No pass stores twice. -/
  once : (c.results.map Prod.fst).Nodup
  /-- No result is for an older text than one before it. -/
  ordered : c.results.Pairwise fun a b => a.2.textVersion ≤ b.2.textVersion
  /-- What is stored is for no newer text than that of the session. -/
  bounded : s.findings.textVersion ≤ s.snapshot.version
  /-- What is stored is the last result. -/
  current : s.findings = (c.results.getLast?.map Prod.snd).getD {}
  /-- No two snapshots have the same version. -/
  unique : ∀ x ∈ c.snapshots, ∀ y ∈ c.snapshots, x.version = y.version → x = y
  /-- A result is made of all that one pass has settled, which are the requests of the text with
  the version of the result. -/
  whole : ∀ i f, (i, f) ∈ c.results → ∃ x ∈ c.snapshots, x.version = f.textVersion ∧
    f.Account (Directive.requests x.text) (c.settledBy i)

/-- What a pass has found in a snapshot, with these directives still to be accounted for. -/
structure Reads (c : Chronicle) (i : Nat) (x : Snapshot) (todo : List Directive)
    (found : Findings) : Prop where
  requests : (c.settledBy i).map Prod.fst ++ todo = Directive.requests x.text
  kinds : ∀ p ∈ c.settledBy i, p.2.kind = p.1.kind
  found : found = (c.settledBy i).foldl Findings.record { textVersion := x.version }

/-- What the stage of a pass tells, when findings for the text with version `v` are stored. -/
def Tells (c : Chronicle) (v : UInt64) (i : Nat) : Pass.Stage → Prop
  | .queued | .entered => ¬ c.Stored i ∧ c.settledBy i = []
  | .resolving todo found _ =>
    ¬ c.Stored i ∧ ∃ x ∈ c.snapshots, v ≤ x.version ∧ c.Reads i x todo found
  | .leaving report | .ended report =>
    ∀ r, report = some r → (r.committed = true ↔ ∃ f, (i, f) ∈ c.results ∧ f.number = r.number)

/-- The invariant of a chronicle. -/
structure Follows (c : Chronicle) (s : Session) : Prop extends c.Faithful s where
  /-- All other snapshots are older than the current one. -/
  past : ∀ x ∈ c.snapshots, x = s.snapshot ∨ x.version < s.snapshot.version
  stages : ∀ i, c.Tells s.findings.textVersion i (s.stageAt i)

/-! ## What stays as it is -/

/-- The chronicle `d` has come from `c` and says the same of a pass. -/
structure Agrees (c d : Chronicle) (i : Nat) : Prop where
  snapshots : c.snapshots ⊆ d.snapshots
  settled : d.settledBy i = c.settledBy i
  results : ∀ f, (i, f) ∈ d.results ↔ (i, f) ∈ c.results

theorem Tells.agrees {c d : Chronicle} {v : UInt64} {i : Nat} {stage : Pass.Stage}
    (h : c.Tells v i stage) (hd : c.Agrees d i) : d.Tells v i stage := by
  have hstored : d.Stored i ↔ c.Stored i := exists_congr hd.results
  cases stage with
  | queued | entered => exact ⟨mt hstored.mp h.1, hd.settled.trans h.2⟩
  | resolving todo found fetch =>
      obtain ⟨hnew, x, hx, hle, hreads⟩ := h
      refine ⟨mt hstored.mp hnew, x, hd.snapshots hx, hle, ?_⟩
      constructor
      · rw [hd.settled, hreads.requests]
      · rw [hd.settled]
        exact hreads.kinds
      · rw [hd.settled, hreads.found]
  | leaving report | ended report =>
      intro r hr
      rw [h r hr]
      exact exists_congr fun f => and_congr_left' (hd.results f).symm

theorem write_nothing (c : Chronicle) : c.write none none = c := by
  simp [write]

theorem settledBy_write_self (c : Chronicle) (i : Nat) (p : Directive × Outcome)
    (stored : Option (Nat × Findings)) :
    (c.write (some (i, p)) stored).settledBy i = c.settledBy i ++ [p] := by
  simp [settledBy, write]

/-- What is written of one pass says nothing of the others. -/
theorem agrees_write {c : Chronicle} {settled : Option (Nat × Directive × Outcome)}
    {stored : Option (Nat × Findings)} {i : Nat} (hsettled : ∀ p ∈ settled, p.1 ≠ i)
    (hstored : ∀ r ∈ stored, r.1 ≠ i) : c.Agrees (c.write settled stored) i := by
  refine ⟨List.Subset.refl _, ?_, ?_⟩
  · cases settled with
    | none => simp [settledBy, write]
    | some p => simp [settledBy, write, hsettled p rfl]
  · intro f
    refine List.mem_append.trans (or_iff_left ?_)
    intro hf
    exact hstored (i, f) (Option.mem_toList.mp hf) rfl

theorem agrees_see (c : Chronicle) (x : Snapshot) (i : Nat) : c.Agrees (c.see x) i :=
  ⟨List.subset_append_left .., rfl, fun _ => .rfl⟩

/-! ## What is stored -/

variable {c : Chronicle} {s t : Session}

/-- No result is newer than what is stored. -/
theorem Faithful.le_stored (h : c.Faithful s) {r : Nat × Findings} (hr : r ∈ c.results) :
    r.2.textVersion ≤ s.findings.textVersion := by
  have hordered := h.ordered
  have hcurrent := h.current
  rcases List.eq_nil_or_concat c.results with hnil | ⟨front, last, hconcat⟩
  · rw [hnil] at hr
    cases hr
  · rw [hconcat, List.concat_eq_append] at hr hordered hcurrent
    rw [List.getLast?_concat] at hcurrent
    rw [hcurrent]
    rcases List.mem_append.mp hr with hfront | hlast
    · exact (List.pairwise_append.mp hordered).2.2 r hfront last List.mem_cons_self
    · rw [List.mem_singleton.mp hlast]
      exact UInt64.le_refl _

/-- As long as the numbers do not run out, the results are numbered without gap or repetition. -/
theorem Faithful.pass_results (h : c.Faithful s) (few : c.results.length < UInt64.size) :
    c.results.map (fun r => r.2.pass) = List.range' 1 c.results.length := by
  have hnumbers := congrArg (List.map UInt64.toNat) h.numbered
  rw [List.map_map, List.map_map] at hnumbers
  refine hnumbers.trans ((List.map_congr_left fun n hn => ?_).trans (List.map_id _))
  have hle : n ≤ c.results.length := by
    have hlt := (List.mem_range'_1.mp hn).2
    omega
  exact UInt64.toNat_ofNat_of_lt' (Nat.lt_of_le_of_lt hle few)

/-- The number of what is stored is the number of the results. -/
theorem Faithful.number_eq (h : c.Faithful s) :
    s.findings.number = UInt64.ofNat c.results.length := by
  have hnumbered := h.numbered
  have hcurrent := h.current
  rcases List.eq_nil_or_concat c.results with hnil | ⟨front, last, hconcat⟩
  · rw [hcurrent, hnil]
    rfl
  · rw [hconcat, List.concat_eq_append] at hnumbered hcurrent ⊢
    rw [List.getLast?_concat] at hcurrent
    rw [List.length_append, List.length_singleton, List.map_append, List.range'_concat,
      List.map_append] at hnumbered
    have hlast : last.2.number = UInt64.ofNat (1 + 1 * front.length) :=
      List.head_eq_of_cons_eq (List.append_inj' hnumbered rfl).2
    rw [hcurrent, List.length_append, List.length_singleton, Nat.add_comm,
      ← Nat.one_mul front.length]
    exact hlast

/-- A result that is newer than what is stored may follow the others. -/
theorem Faithful.store (h : c.Faithful s) {i : Nat} {x : Snapshot} {found : Findings}
    (hx : x ∈ c.snapshots) (older : s.findings.textVersion ≤ x.version)
    (bounded : x.version ≤ s.snapshot.version) (new : ¬ c.Stored i) (reads : c.Reads i x [] found)
    (snapshot : t.snapshot = s.snapshot)
    (findings : t.findings = { found with number := s.findings.number + 1 }) :
    (c.write none (some (i, t.findings))).Faithful t := by
  have hversion : found.textVersion = x.version := by
    rw [reads.found, Findings.textVersion_foldl_record]
  have haccount : t.findings.Account (Directive.requests x.text) (c.settledBy i) := by
    have hlists := Findings.account_foldl_record (c.settledBy i) reads.kinds
      { textVersion := x.version } ⟨rfl, rfl, rfl, rfl⟩
    have hrequests := reads.requests
    rw [List.append_nil] at hrequests
    rw [hrequests, ← reads.found] at hlists
    rw [findings]
    exact hlists.numbered (s.findings.number + 1)
  have hresults : (c.write none (some (i, t.findings))).results = c.results ++ [(i, t.findings)] :=
    rfl
  have hsettled (k : Nat) : (c.write none (some (i, t.findings))).settledBy k = c.settledBy k := by
    simp [settledBy, write]
  constructor
  · rw [hresults, List.map_append, h.numbered, List.length_append, List.length_singleton,
      List.range'_concat, List.map_append]
    simp [findings, h.number_eq, Nat.add_comm]
  · rw [hresults, List.map_append, List.nodup_append]
    refine ⟨h.once, List.nodup_singleton i, ?_⟩
    rintro j hj k hk rfl
    obtain ⟨⟨j, f⟩, hmem, rfl⟩ := List.mem_map.mp hj
    have hji : j = i := List.mem_singleton.mp hk
    exact new ⟨f, hji ▸ hmem⟩
  · -- the results before are no newer than what is stored, and that is older than the new one
    rw [hresults, List.pairwise_append]
    refine ⟨h.ordered, List.pairwise_singleton _ _, ?_⟩
    intro a ha b hb
    rw [List.mem_singleton.mp hb, findings]
    exact UInt64.le_trans (h.le_stored ha) (hversion ▸ older)
  · rw [findings, snapshot]
    exact hversion ▸ bounded
  · rw [hresults, List.getLast?_concat]
    rfl
  · exact h.unique
  · intro k f hf
    rw [hsettled]
    rcases List.mem_append.mp hf with hold | hnew
    · exact h.whole k f hold
    · obtain ⟨rfl, rfl⟩ := Prod.mk.inj (List.mem_singleton.mp hnew)
      exact ⟨x, hx, by rw [findings, hversion], haccount⟩

/-! ## The invariant -/

/-- The chronicle of a session in which nothing has happened. -/
theorem follows_new (passes : s.passes = []) (findings : s.findings = {}) :
    ({} : Chronicle).Follows s := by
  refine ⟨⟨rfl, .nil, .nil, ?_, findings, nofun, nofun⟩, nofun, ?_⟩
  · rw [findings]
    exact UInt64.zero_le
  · intro i
    have hstage : s.stageAt i = .queued := by simp [Session.stageAt, passes]
    rw [hstage]
    exact ⟨nofun, rfl⟩

theorem Follows.see (h : c.Follows s) : (c.see s.snapshot).Follows s := by
  refine ⟨⟨h.numbered, h.once, h.ordered, h.bounded, h.current, ?_, ?_⟩, ?_, ?_⟩
  · have hlatest {x : Snapshot} (hx : x ∈ c.snapshots) (hv : x.version = s.snapshot.version) :
        x = s.snapshot := by
      rcases h.past x hx with hsame | hlt
      · exact hsame
      · rw [hv] at hlt
        exact absurd hlt (UInt64.lt_irrefl _)
    intro x hx y hy hv
    rcases List.mem_append.mp hx with hx | hx
    · rcases List.mem_append.mp hy with hy | hy
      · exact h.unique x hx y hy hv
      · rw [List.mem_singleton.mp hy] at hv ⊢
        exact hlatest hx hv
    · rw [List.mem_singleton.mp hx] at hv ⊢
      rcases List.mem_append.mp hy with hy | hy
      · exact (hlatest hy hv.symm).symm
      · exact (List.mem_singleton.mp hy).symm
  · intro i f hf
    obtain ⟨x, hx, hrest⟩ := h.whole i f hf
    exact ⟨x, List.mem_append_left _ hx, hrest⟩
  · intro x hx
    rcases List.mem_append.mp hx with hold | hnew
    · exact h.past x hold
    · exact .inl (List.mem_singleton.mp hnew)
  · exact fun i => (h.stages i).agrees (c.agrees_see s.snapshot i)

/-- The invariant is kept by whatever leaves the findings alone. -/
theorem Follows.keep (h : c.Follows s) (findings : t.findings = s.findings)
    (newer : t.snapshot = s.snapshot ∨ s.snapshot.version < t.snapshot.version)
    (stages : ∀ i, c.Tells s.findings.textVersion i (t.stageAt i)) : c.Follows t := by
  refine ⟨⟨h.numbered, h.once, h.ordered, ?_, findings.trans h.current, h.unique, h.whole⟩, ?_, ?_⟩
  · rw [findings]
    rcases newer with hsame | hlt
    · rw [hsame]
      exact h.bounded
    · exact UInt64.le_trans h.bounded (UInt64.le_of_lt hlt)
  · intro x hx
    rcases newer with hsame | hlt
    · rw [hsame]
      exact h.past x hx
    · rcases h.past x hx with rfl | hlt'
      · exact .inr hlt
      · exact .inr (UInt64.lt_trans hlt' hlt)
  · rw [findings]
    exact stages

theorem Follows.act (h : c.Follows s) {a : Session.Action} (ha : a.isStep = false) :
    c.Follows (s.perform a) := by
  refine h.keep (s.calm_perform ha).1 ?_ fun i => ?_
  · rcases s.snapshot_perform a with hsame | ⟨-, next, -, -, hlt, hnext⟩
    · exact .inl hsame
    · exact .inr (hnext ▸ hlt)
  · rcases s.stageAt_perform ha i with hsame | hended
    · rw [hsame]
      exact h.stages i
    · rw [hended]
      exact nofun

/-- One pass comes to another stage, and nothing is written of it. -/
theorem Follows.setPass (h : c.Follows s) {i : Nat} {p q : Pass} (at_i : s.passes[i]? = some p)
    (passes : t.passes = s.passes) (snapshot : t.snapshot = s.snapshot)
    (findings : t.findings = s.findings) (tells : c.Tells s.findings.textVersion i q.stage) :
    c.Follows (t.setPass i q) := by
  refine h.keep findings (.inl snapshot) fun j => ?_
  by_cases hij : i = j
  · subst hij
    rw [Session.stageAt_setPass_self at_i passes]
    exact tells
  · rw [Session.stageAt_setPass_ne hij passes]
    exact h.stages j

/-- A pass settles a request. -/
theorem Follows.settle (h : c.Follows s) {i : Nat} {b : Bool} {d : Directive}
    {rest : List Directive} {found : Findings} {fetch : Option Fetch} {o : Outcome}
    (at_i : s.passes[i]? = some ⟨b, .resolving (d :: rest) found fetch⟩) (kind : o.kind = d.kind) :
    (c.write (some (i, d, o)) none).Follows
      (s.setPass i ⟨b, .resolving rest (found.record (d, o)) none⟩) := by
  have htells := h.stages i
  rw [Session.stageAt_of_getElem? at_i] at htells
  obtain ⟨hnew, x, hx, hle, hreads⟩ := htells
  have hresults : (c.write (some (i, d, o)) none).results = c.results := List.append_nil _
  have hagrees {j : Nat} (hj : i ≠ j) : c.Agrees (c.write (some (i, d, o)) none) j := by
    refine agrees_write (fun p hp => ?_) nofun
    rw [← Option.some.inj hp]
    exact hj
  refine ⟨⟨hresults ▸ h.numbered, hresults ▸ h.once, hresults ▸ h.ordered, h.bounded,
    hresults ▸ h.current, h.unique, ?_⟩, h.past, ?_⟩
  · -- a pass that has stored is over, so it is another one than the pass that settles
    intro k f hf
    rw [hresults] at hf
    have hk : i ≠ k := by
      rintro rfl
      exact hnew ⟨f, hf⟩
    rw [(hagrees hk).settled]
    exact h.whole k f hf
  · intro j
    by_cases hij : i = j
    · subst hij
      rw [Session.stageAt_setPass_self at_i rfl]
      refine ⟨by rw [Stored, hresults]; exact hnew, x, hx, hle, ?_, ?_, ?_⟩
      · rw [settledBy_write_self, List.map_append, List.append_assoc, ← hreads.requests]
        rfl
      · intro p hp
        rw [settledBy_write_self] at hp
        rcases List.mem_append.mp hp with hold | hlast
        · exact hreads.kinds p hold
        · rw [List.mem_singleton.mp hlast]
          exact kind
      · rw [settledBy_write_self, List.foldl_append, ← hreads.found]
        rfl
    · rw [Session.stageAt_setPass_ne hij rfl]
      exact (h.stages j).agrees (hagrees hij)

/-- What is told of a pass that is not among the directives does not depend on what is stored. -/
theorem Tells.restored {v v' : UInt64} {i : Nat} {stage : Pass.Stage} (h : c.Tells v i stage)
    (outside : ∀ todo found fetch, stage ≠ .resolving todo found fetch) : c.Tells v' i stage := by
  cases stage with
  | resolving todo found fetch => exact absurd rfl (outside todo found fetch)
  | queued | entered | leaving | ended => exact h

/-- A pass stores its findings. -/
theorem Follows.store (h : c.Follows s) (gate : s.GateKept) {i : Nat} {b : Bool}
    {found : Findings} {fetch : Option Fetch}
    (at_i : s.passes[i]? = some ⟨b, .resolving [] found fetch⟩)
    (passes : t.passes = s.passes) (snapshot : t.snapshot = s.snapshot)
    (findings : t.findings = { found with number := s.findings.number + 1 }) {r : Report}
    (committed : r.committed = true) (number : r.number = t.findings.number) :
    (c.write none (some (i, t.findings))).Follows (t.setPass i ⟨b, .ended (some r)⟩) := by
  have htells := h.stages i
  rw [Session.stageAt_of_getElem? at_i] at htells
  obtain ⟨hnew, x, hx, hle, hreads⟩ := htells
  have hbounded : x.version ≤ s.snapshot.version := by
    rcases h.past x hx with rfl | hlt
    · exact UInt64.le_refl _
    · exact UInt64.le_of_lt hlt
  have hfaithful := h.toFaithful.store hx hle hbounded hnew hreads snapshot findings
  have hagrees {j : Nat} (hj : i ≠ j) : c.Agrees (c.write none (some (i, t.findings))) j := by
    refine agrees_write nofun fun r hr => ?_
    rw [← Option.some.inj hr]
    exact hj
  refine ⟨⟨hfaithful.numbered, hfaithful.once, hfaithful.ordered, hfaithful.bounded,
    hfaithful.current, hfaithful.unique, hfaithful.whole⟩, snapshot ▸ h.past, ?_⟩
  intro j
  by_cases hij : i = j
  · subst hij
    rw [Session.stageAt_setPass_self at_i passes]
    intro r' hr'
    rw [← Option.some.inj hr']
    refine iff_of_true committed ⟨t.findings, ?_, number.symm⟩
    exact List.mem_append_right _ List.mem_cons_self
  · rw [Session.stageAt_setPass_ne hij passes]
    refine ((h.stages j).restored ?_).agrees (hagrees hij)
    -- a pass that is among the directives is inside, and there is only one
    intro todo found' fetch' hstage
    obtain ⟨p, at_j, hp⟩ := Session.exists_of_stageAt_resolving hstage
    exact hij (eq_of_countP_le_one gate.inside_le_one at_i at_j rfl hp)

/-- **One turn of a pass.** What the pass settles and stores is written down, and the invariant is
kept. -/
theorem Follows.stride (h : c.Follows s) (seen : s.snapshot ∈ c.snapshots) (gate : s.GateKept)
    {i : Nat} {p q : Pass} (at_i : s.passes[i]? = some p) {w : World} (hstride : p.Stride w s q t) :
    (c.write (s.settled? w i) (s.stored? (t.setPass i q) i)).Follows (t.setPass i q) := by
  have htells := h.stages i
  rw [Session.stageAt_of_getElem? at_i] at htells
  have hsettled : s.settled? w i = (p.settles? w s).map (i, ·) := by
    rw [Session.settled?, at_i, Option.bind_some]
  obtain ⟨hpasses, hsnapshot⟩ := hstride.frame
  have hquiet (hnone : p.settles? w s = none) (hsame : t.findings = s.findings)
      (tells : c.Tells s.findings.textVersion i q.stage) :
      (c.write (s.settled? w i) (s.stored? (t.setPass i q) i)).Follows (t.setPass i q) := by
    have hstored : s.stored? (t.setPass i q) i = none := if_pos (by rw [← hsame]; rfl)
    rw [hsettled, hnone, hstored, Option.map_none, write_nothing]
    exact h.setPass at_i hpasses hsnapshot hsame tells
  cases hstride with
  | wait | enter | rest => exact hquiet rfl rfl htells
  | turnBack => exact hquiet rfl rfl nofun
  | read b =>
      -- from now on the pass is held to the present snapshot, of which it has settled nothing
      obtain ⟨hnew, hnothing⟩ := htells
      refine hquiet rfl rfl ⟨hnew, s.snapshot, seen, h.bounded, ?_, ?_, ?_⟩
      · rw [hnothing, Directive.distinctDirectives_eq]
        rfl
      · rw [hnothing]
        exact nofun
      · rw [hnothing]
        rfl
  | settle b d rest found fetch o ho =>
      have hone : Pass.settles? w s ⟨b, .resolving (d :: rest) found fetch⟩ = some (d, o) := by
        simp [Pass.settles?, ho]
      have hstored : s.stored? (s.setPass i ⟨b, .resolving rest (found.record (d, o)) none⟩) i
          = none := if_pos rfl
      rw [hsettled, hone, hstored]
      exact h.settle at_i (Resolver.kind_outcome? ho)
  | look b d rest found fetch fetch' ho => exact hquiet (by simp [Pass.settles?, ho]) rfl htells
  | finish b found fetch =>
      by_cases hc : s.closed = true
      · -- nothing is stored in a closed session, and the report says so
        have hcommit := Session.commit_of_closed hc found
        refine hquiet rfl (by rw [hcommit.1]; rfl) ?_
        intro r hr
        rw [← Option.some.inj hr, hcommit.2]
        refine iff_of_false Bool.false_ne_true ?_
        rintro ⟨f, hf, -⟩
        exact htells.1 ⟨f, hf⟩
      · have hnone : Pass.settles? w s ⟨b, .resolving [] found fetch⟩ = none := rfl
        have hfindings : (s.commit found).2.unlock.findings
            = { found with number := s.findings.number + 1 } := by
          rw [Session.commit_of_open (by simpa using hc)]
          rfl
        have hnumber : (s.commit found).2.unlock.findings.number = s.findings.number + 1 := by
          rw [hfindings]
        have hreport : (s.commit found).1.committed = true ∧
            (s.commit found).1.number = s.findings.number + 1 := by
          simp [Session.commit, hc]
        have hstored (q : Pass) : s.stored? ((s.commit found).2.unlock.setPass i q) i
            = some (i, (s.commit found).2.unlock.findings) :=
          if_neg fun hsame => by simpa using hnumber.symm.trans hsame
        rw [hsettled, hnone, hstored]
        exact h.store gate at_i hpasses hsnapshot hfindings hreport.1 (by rw [hnumber, hreport.2])

/-- A report says that its findings were stored if and only if they were. -/
theorem Follows.committed_iff (h : c.Follows s) {i : Nat} {r : Report}
    (hr : s.report? i = some r) :
    r.committed = true ↔ ∃ f, (i, f) ∈ c.results ∧ f.number = r.number := by
  obtain ⟨p, at_i, hp⟩ := Option.bind_eq_some_iff.mp hr
  have htells := h.stages i
  rw [Session.stageAt_of_getElem? at_i] at htells
  obtain ⟨b, stage⟩ := p
  cases stage with
  | queued | entered | resolving => cases hp
  | leaving report | ended report => exact htells r hp

end Chronicle

end ScriptSessions
