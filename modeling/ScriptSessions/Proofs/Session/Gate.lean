import ScriptSessions.Proofs.Lists
import ScriptSessions.Proofs.Session.Runs

set_option autoImplicit false

/-! # The gate of a session

The gate has a lock and a flag. In every run the lock is taken exactly as long as one pass is
inside, and while the session is open the flag is set exactly as long as one scheduled pass
waits for the lock. Both are counted over the passes that were ever asked for
(`GateKept.inside`, `GateKept.waiting`), so there is never a second one of either kind.

A pass that is inside reads the text once. The version that it has read is not newer than the
text of the session, and neither are the findings that are stored (`VersionsKept`).
-/

namespace ScriptSessions

namespace Pass

/-- Whether requests are folded into a pass: it is scheduled and has not got the lock yet. -/
def isWaiting (p : Pass) : Bool := p.scheduled && p.isQueued

theorem isWaiting_eq_false {p : Pass} (h : p.isQueued = false) : p.isWaiting = false := by
  simp [isWaiting, h]

/-- A pass that is stopped in an open session is no scheduled one, and so requests are not folded
into it. -/
theorem isWaiting_of_stop {s : Session} {p : Pass} (why : p.scheduled = true → s.closed = true)
    (isOpen : s.closed = false) : p.isWaiting = false := by
  cases hb : p.scheduled with
  | true => rw [why hb] at isOpen; cases isOpen
  | false => simp [isWaiting, hb]

/-- The version of the text that a pass has read, while it is among the directives. -/
def version? (p : Pass) : Option UInt64 :=
  match p.stage with
  | .resolving _ found _ => some found.textVersion
  | _ => none

theorem isInside_of_version? {p : Pass} {v : UInt64} (h : p.version? = some v) :
    p.isInside = true := by
  obtain ⟨b, stage⟩ := p
  cases stage <;> simp_all [version?, isInside]

/-- Looking at a directive leaves a pass where it is and as it is to the gate. -/
theorem look_eq (b : Bool) (w : World) (others : List Reference.Fetch) (c : Reference.Cache)
    (s : Session) (d : Directive) (rest : List Directive) (found : Findings)
    (fetch : Option Reference.Fetch) :
    let q : Pass := ⟨b, (stepDirective w others c s d rest found fetch).1⟩
    q.isInside = true ∧ q.isQueued = false ∧ q.version? = some found.textVersion := by
  obtain ⟨todo, found', fetch', h, hv⟩ := stepDirective_eq w others c s d rest found fetch
  rw [h]
  exact ⟨rfl, rfl, congrArg some hv⟩

/-- What a move leaves as the version of the findings was there before, or the pass has read
it. -/
theorem Move.stored_version {s t : Session} {p q : Pass} (h : p.Move s q t) :
    t.findings.textVersion = s.findings.textVersion ∨
      p.version? = some t.findings.textVersion := by
  cases h with
  | idle | enter | turnBack | read | look | leave => exact .inl rfl
  | commit b found fetch =>
      by_cases hc : s.closed = true
      · exact .inl (by rw [(Session.commit_of_closed hc found).1])
      · exact .inr (by rw [Session.commit_of_open (by simpa using hc)]; rfl)
  | stop => split <;> exact .inl rfl

/-- The version that a pass has after a move was read before, or is the newest one. -/
theorem Move.read_version {s t : Session} {p q : Pass} (h : p.Move s q t) {v : UInt64}
    (hv : q.version? = some v) : p.version? = some v ∨ v = s.snapshot.version := by
  cases h with
  | idle => exact .inl hv
  | enter | turnBack | commit | leave | stop => cases hv
  | read => exact .inr (Option.some.inj hv).symm
  | look b w others c d rest found fetch =>
      rw [(look_eq b w others c s d rest found fetch).2.2] at hv
      exact .inl hv

end Pass

namespace Session

/-! ## The lock and the flag -/

/-- What the lock and the flag of the gate say is true of the passes. -/
structure GateKept (s : Session) : Prop where
  inside : s.passes.countP Pass.isInside = s.gate.locked.toNat
  waiting : s.closed = false → s.passes.countP Pass.isWaiting = s.gate.pending.toNat

theorem GateKept.inside_le_one {s : Session} (h : s.GateKept) :
    s.passes.countP Pass.isInside ≤ 1 := by
  rw [h.inside]
  cases s.gate.locked <;> decide

/-- A pass that is inside has locked the gate. -/
theorem GateKept.locked_of_isInside {s : Session} {p : Pass} {i : Nat} (h : s.GateKept)
    (at_i : s.passes[i]? = some p) (hp : p.isInside = true) : s.gate.locked = true := by
  have hpos : 0 < s.passes.countP Pass.isInside :=
    List.countP_pos_iff.mpr ⟨p, List.mem_of_getElem? at_i, hp⟩
  rw [h.inside] at hpos
  cases hl : s.gate.locked with
  | true => rfl
  | false => rw [hl] at hpos; exact absurd hpos (by decide)

/-- A scheduled pass that waits for an open session has set the flag. -/
theorem GateKept.pending_of_isWaiting {s : Session} {p : Pass} {i : Nat} (h : s.GateKept)
    (isOpen : s.closed = false) (at_i : s.passes[i]? = some p) (hp : p.isWaiting = true) :
    s.gate.pending = true := by
  have hpos : 0 < s.passes.countP Pass.isWaiting :=
    List.countP_pos_iff.mpr ⟨p, List.mem_of_getElem? at_i, hp⟩
  rw [h.waiting isOpen] at hpos
  cases hl : s.gate.pending with
  | true => rfl
  | false => rw [hl] at hpos; exact absurd hpos (by decide)

/-- The gate is kept if the lock and the flag change by what one pass changes. -/
theorem GateKept.setPass {s t : Session} {p q : Pass} {i : Nat} (hs : s.GateKept)
    (at_i : s.passes[i]? = some p) (passes : t.passes = s.passes) (closed : t.closed = s.closed)
    (lock : t.gate.locked.toNat + p.isInside.toNat = s.gate.locked.toNat + q.isInside.toNat)
    (flag : s.closed = false →
      t.gate.pending.toNat + p.isWaiting.toNat = s.gate.pending.toNat + q.isWaiting.toNat) :
    (t.setPass i q).GateKept := by
  constructor
  · have hcount := countP_set_add Pass.isInside at_i q
    rw [hs.inside] at hcount
    show (t.passes.set i q).countP Pass.isInside = t.gate.locked.toNat
    rw [passes]
    omega
  · intro isOpen
    have hopen : s.closed = false := closed ▸ isOpen
    have hcount := countP_set_add Pass.isWaiting at_i q
    rw [hs.waiting hopen] at hcount
    have hflag := flag hopen
    show (t.passes.set i q).countP Pass.isWaiting = t.gate.pending.toNat
    rw [passes]
    omega

/-- The flag does not matter to a pass that is past waiting. -/
theorem GateKept.setPass_past {s t : Session} {p q : Pass} {i : Nat} (hs : s.GateKept)
    (at_i : s.passes[i]? = some p) (passes : t.passes = s.passes) (closed : t.closed = s.closed)
    (pending : t.gate.pending = s.gate.pending) (hp : p.isQueued = false) (hq : q.isQueued = false)
    (lock : t.gate.locked.toNat + p.isInside.toNat = s.gate.locked.toNat + q.isInside.toNat) :
    (t.setPass i q).GateKept := by
  refine hs.setPass at_i passes closed lock fun _ => ?_
  rw [pending, Pass.isWaiting_eq_false hp, Pass.isWaiting_eq_false hq]

theorem GateKept.move {s t : Session} {p q : Pass} {i : Nat} (hs : s.GateKept)
    (at_i : s.passes[i]? = some p) (h : p.Move s q t) : (t.setPass i q).GateKept := by
  have hlocked := hs.locked_of_isInside at_i
  cases h with
  | idle => exact hs.setPass at_i rfl rfl rfl fun _ => rfl
  | enter b free isOpen =>
      refine hs.setPass at_i rfl rfl (by rw [free]; rfl) fun hopen => ?_
      -- a scheduled pass clears the flag, which it has set; another one leaves it alone
      have hpending := hs.pending_of_isWaiting hopen at_i
      cases b with
      | true => rw [hpending rfl]; rfl
      | false => rfl
  | turnBack b free isClosed =>
      refine hs.setPass at_i rfl rfl (by rw [free]; rfl) fun hopen => ?_
      rw [isClosed] at hopen
      cases hopen
  | read b => exact hs.setPass_past at_i rfl rfl rfl rfl rfl rfl
  | look b w others c d rest found fetch =>
      obtain ⟨hinside, hqueued, -⟩ := Pass.look_eq b w others c s d rest found fetch
      exact hs.setPass_past at_i rfl rfl rfl rfl hqueued (by rw [hinside]; rfl)
  | commit b found fetch =>
      by_cases hc : s.closed = true
      · rw [(commit_of_closed hc found).1]
        exact hs.setPass_past at_i rfl rfl rfl rfl rfl rfl
      · rw [commit_of_open (by simpa using hc)]
        exact hs.setPass_past at_i rfl rfl rfl rfl rfl rfl
  | leave b report =>
      rw [show Pass.isInside ⟨b, .leaving report⟩ = true from rfl] at hlocked
      exact hs.setPass_past at_i rfl rfl rfl rfl rfl (by rw [hlocked rfl]; rfl)
  | stop _ unfinished why =>
      have hflag := Pass.isWaiting_of_stop why
      have hq : Pass.isWaiting ⟨p.scheduled, .ended none⟩ = false := Pass.isWaiting_eq_false rfl
      split
      · next hp =>
          refine hs.setPass at_i rfl rfl (by rw [hp, hlocked hp]; rfl) fun hopen => ?_
          rw [hflag hopen, hq]
          rfl
      · next hp =>
          have hp : p.isInside = false := by simpa using hp
          refine hs.setPass at_i rfl rfl (by rw [hp]; rfl) fun hopen => ?_
          rw [hflag hopen, hq]

theorem GateKept.perform {s : Session} (hs : s.GateKept) (a : Action) :
    (s.perform a).GateKept := by
  have h := s.effect_perform a
  generalize s.perform a = t at h
  cases h with
  | idle => exact hs
  | update => exact ⟨hs.inside, hs.waiting⟩
  | fold isOpen => exact ⟨hs.inside, hs.waiting⟩
  | schedule isOpen idle =>
      have hwaiting := hs.waiting isOpen
      rw [idle] at hwaiting
      constructor
      · show List.countP Pass.isInside (s.passes ++ [⟨true, .queued⟩]) = s.gate.locked.toNat
        rw [List.countP_append, hs.inside]
        rfl
      · intro _
        show List.countP Pass.isWaiting (s.passes ++ [⟨true, .queued⟩]) = true.toNat
        rw [List.countP_append, hwaiting]
        rfl
  | requestNow =>
      constructor
      · show List.countP Pass.isInside (s.passes ++ [⟨false, .queued⟩]) = s.gate.locked.toNat
        rw [List.countP_append, hs.inside]
        rfl
      · intro isOpen
        show List.countP Pass.isWaiting (s.passes ++ [⟨false, .queued⟩]) = s.gate.pending.toNat
        rw [List.countP_append, hs.waiting isOpen]
        rfl
  | cancel | close =>
      -- the flag says nothing of a closed session, whose passes may be dropped while they wait
      exact ⟨hs.inside, nofun⟩
  | move _ i p q t at_i h => exact hs.move at_i h

theorem Reachable.gateKept {s : Session} (h : s.Reachable) : s.GateKept :=
  h.induction (fun _ _ _ _ _ _ => ⟨rfl, fun _ => rfl⟩) fun _ a hs => hs.perform a

/-! ## The versions that have been read -/

/-- No version that has been read is newer than the text of the session. -/
structure VersionsKept (s : Session) : Prop where
  stored : s.findings.textVersion ≤ s.snapshot.version
  read : ∀ p ∈ s.passes, ∀ v, p.version? = some v → v ≤ s.snapshot.version

theorem VersionsKept.move {s t : Session} {p q : Pass} {i : Nat} (hs : s.VersionsKept)
    (at_i : s.passes[i]? = some p) (h : p.Move s q t) : (t.setPass i q).VersionsKept := by
  have hread := hs.read p (List.mem_of_getElem? at_i)
  have hstored := h.stored_version
  have hq := fun v => h.read_version (v := v)
  obtain ⟨gate, findings, rfl⟩ := h.frame
  constructor
  · rcases hstored with hsame | hfound
    · show findings.textVersion ≤ s.snapshot.version
      rw [hsame]
      exact hs.stored
    · exact hread _ hfound
  · intro r hr v hv
    rcases List.mem_or_eq_of_mem_set hr with hmem | rfl
    · exact hs.read r hmem v hv
    · rcases hq v hv with hsame | rfl
      · exact hread v hsame
      · exact UInt64.le_refl _

theorem VersionsKept.perform {s : Session} (hs : s.VersionsKept) (a : Action) :
    (s.perform a).VersionsKept := by
  have h := s.effect_perform a
  generalize s.perform a = t at h
  cases h with
  | idle => exact hs
  | update next isOpen base newer =>
      have hle := UInt64.le_of_lt newer
      exact ⟨UInt64.le_trans hs.stored hle,
        fun p hp v hv => UInt64.le_trans (hs.read p hp v hv) hle⟩
  | fold | cancel | close => exact ⟨hs.stored, hs.read⟩
  | schedule | requestNow =>
      refine ⟨hs.stored, ?_⟩
      intro p hp v hv
      rcases List.mem_append.mp hp with hmem | hnew
      · exact hs.read p hmem v hv
      · rw [List.mem_singleton.mp hnew] at hv
        cases hv
  | move _ i p q t at_i h => exact hs.move at_i h

theorem Reachable.versionsKept {s : Session} (h : s.Reachable) : s.VersionsKept :=
  h.induction (fun _ _ _ _ _ _ => ⟨UInt64.le_refl _, nofun⟩) fun _ a hs => hs.perform a

end Session

end ScriptSessions
