import ScriptSessions.Session.Basic

set_option autoImplicit false

/-! # Passes and the gate

`Session.request` asks for a pass without waiting for it, and `Pass.step` is what a pass does
between two points at which it may be suspended: take the lock, read the snapshot, look at
the disk once on behalf of a directive, store what was found, release the lock. Everything
else may happen between two steps, and a step that cannot be taken leaves all as it is.

Two points matter for the gate. A scheduled pass counts as waiting until it has the lock, and
it reads the snapshot only after that; so a request that is folded into it is answered by a
text at least as new as the one it was made for. And whether the session has been closed is
looked at once more when the findings are about to be stored, so a closed session does not
change any more.

`Pass.run` takes the steps of one pass without a break.
-/

namespace ScriptSessions

open Reference

/-! ## Requests -/

/-- What becomes of a request for a pass. -/
inductive RequestOutcome where
  /-- A new pass waits to be run. -/
  | scheduled
  /-- A pass is already waiting and will see to the request. -/
  | coalesced
  /-- The session is closed. -/
  | closed
deriving DecidableEq, Repr, Inhabited

namespace Session

/-- Asks for a pass without waiting for it. -/
def request (s : Session) : RequestOutcome × Session :=
  if s.closed then (.closed, s)
  else if s.gate.pending then
    (.coalesced, { s with gate := { s.gate with coalesced := s.gate.coalesced + 1 } })
  else
    (.scheduled, { s with
      gate := { s.gate with pending := true }
      passes := s.passes ++ [⟨true, .queued⟩] })

/-- Asks for a pass that its client will wait for. -/
def requestNow (s : Session) : Session := { s with passes := s.passes ++ [⟨false, .queued⟩] }

/-- Stores the findings of a pass, unless the session has been closed. -/
def commit (s : Session) (found : Findings) : Report × Session :=
  let report : Report :=
    { number := 0, textVersion := found.textVersion, resolved := found.references.length,
      failures := found.diagnostics.length, committed := false }
  if s.closed then (report, s)
  else
    let number := s.findings.number + 1
    ({ report with number, committed := true }, { s with findings := { found with number } })

end Session

/-! ## Steps -/

namespace Pass

/-- A pass that waits for the lock takes it when it is free. -/
def enter (s : Session) (p : Pass) : Pass × Session :=
  if s.gate.locked then (p, s)
  else
    let gate := { s.gate with
      locked := true, pending := if p.scheduled then false else s.gate.pending }
    ({ p with stage := if s.closed then .leaving none else .entered }, { s with gate })

/-- What a pass that starts now has before it: the distinct directives of the text. -/
def readSnapshot (s : Session) : Stage :=
  .resolving (distinctDirectives (Directive.scan s.snapshot.text))
    { textVersion := s.snapshot.version } none

/-- One step on behalf of the directive `d`, which stands before the directives `rest`. -/
def stepDirective (w : World) (others : List Fetch) (c : Cache) (s : Session) (d : Directive)
    (rest : List Directive) (found : Findings) (fetch : Option Fetch) : Stage × Cache :=
  match d.kind, fetch with
  | .load, _ =>
    let path := s.resolver.scriptPath d.value
    (.resolving rest (found.addScript d path (w.isFile path)) none, c)
  | .reference, none =>
    match s.resolver.location d.value with
    | .error e => (.resolving rest (found.addReference d (.error e)) none, c)
    | .ok location => (.resolving (d :: rest) found (some (.start location)), c)
  | .reference, some f =>
    match f.result? with
    | some result => (.resolving rest (found.addReference d result) none, c)
    | none =>
      let (f, c) := f.step w others c
      (.resolving (d :: rest) found (some f), c)

/-- One step of a pass, beside the fetches of everyone else. -/
def step (w : World) (others : List Fetch) (c : Cache) (s : Session) (p : Pass) :
    Pass × Session × Cache :=
  match p.stage with
  | .queued =>
    let (p, s) := p.enter s
    (p, s, c)
  | .entered => ({ p with stage := readSnapshot s }, s, c)
  | .resolving (d :: rest) found fetch =>
    let (stage, c) := stepDirective w others c s d rest found fetch
    ({ p with stage }, s, c)
  | .resolving [] found _ =>
    let (report, s) := s.commit found
    ({ p with stage := .leaving (some report) }, s, c)
  | .leaving report =>
    ({ p with stage := .ended report }, { s with gate := { s.gate with locked := false } }, c)
  | .ended _ => (p, s, c)

/-- A scheduled pass of a closed session is dropped wherever it is; a lock that it has is
released. -/
def drop (s : Session) (p : Pass) : Pass × Session :=
  if p.scheduled && s.closed && !p.isEnded then
    ({ p with stage := .ended none },
      if p.isInside then { s with gate := { s.gate with locked := false } } else s)
  else (p, s)

/-! ## Running without a break -/

/-- What is left of the work of a pass: its phase, the directives before it, and the steps of
the fetch that is under way. -/
def remaining (c : Cache) (p : Pass) : Nat × Nat × Nat :=
  match p.stage with
  | .queued => (3, 0, 0)
  | .entered => (2, 0, 0)
  | .resolving todo _ none => (1, todo.length, c.searchDirectories.length + 13)
  | .resolving todo _ (some f) => (1, todo.length, f.remaining c)
  | .leaving _ => (0, 0, 0)
  | .ended _ => (0, 0, 0)

/-- Whether a pass is at work: it has the lock and has not finished. -/
def isWorking (p : Pass) : Bool :=
  match p.stage with
  | .entered | .resolving _ _ _ => true
  | _ => false

theorem remaining_step_lt (w : World) (c : Cache) (s : Session) (p : Pass)
    (h : p.isWorking = true) :
    Prod.Lex (· < ·) (Prod.Lex (· < ·) (· < ·))
      ((p.step w [] c s).1.remaining (p.step w [] c s).2.2) (p.remaining c) := by
  obtain ⟨scheduled, stage⟩ := p
  cases stage with
  | queued => simp [isWorking] at h
  | entered => exact .left _ _ (by decide)
  | resolving todo found fetch =>
      cases todo with
      | nil => cases fetch <;> exact .left _ _ (by decide)
      | cons d rest =>
          have shorter (found' : Findings) (c' : Cache) :
              Prod.Lex (· < ·) (Prod.Lex (· < ·) (· < ·))
                (remaining c' ⟨scheduled, .resolving rest found' none⟩)
                (remaining c ⟨scheduled, .resolving (d :: rest) found fetch⟩) := by
            cases fetch <;> exact .right _ (.left _ _ (by simp))
          cases hk : d.kind with
          | load => simp only [step, stepDirective, hk]; exact shorter _ _
          | reference =>
              cases fetch with
              | none =>
                  simp only [step, stepDirective, hk]
                  split
                  · exact shorter _ _
                  · exact .right _ (.right _ (by simp [Fetch.start, Fetch.remaining]))
              | some f =>
                  simp only [step, stepDirective, hk]
                  split
                  · exact shorter _ _
                  · next hf => exact .right _ (.right _ (Fetch.remaining_step_lt w c f hf))
  | leaving report => simp [isWorking] at h
  | ended report => simp [isWorking] at h

/-- Does the work of a pass that has the lock, without a break and with no other fetch
about. -/
def work (w : World) (c : Cache) (s : Session) (p : Pass) : Pass × Session × Cache :=
  if _h : p.isWorking = true then
    let next := p.step w [] c s
    work w next.2.2 next.2.1 next.1
  else (p, s, c)
termination_by p.remaining c
decreasing_by exact remaining_step_lt w c s p _h

/-- Takes all steps of a pass: the lock, the work, the release. A pass that does not get the
lock stays where it is. -/
def run (w : World) (c : Cache) (s : Session) (p : Pass) : Pass × Session × Cache :=
  let (p, s) := p.enter s
  let (p, s, c) := p.work w c s
  match p.stage with
  | .leaving _ => p.step w [] c s
  | _ => (p, s, c)

end Pass

namespace Session

/-- Runs the passes of a session that have not ended, in order. -/
def settle (w : World) (c : Cache) (s : Session) : Session × Cache :=
  go c { s with passes := [] } s.passes
where
  /-- Runs the given passes and puts each one back into the list of the session. -/
  go (c : Cache) (s : Session) : List Pass → Session × Cache
    | [] => (s, c)
    | p :: rest =>
      let (p, s) := p.drop s
      let (p, s, c) := if p.isQueued then p.run w c s else (p, s, c)
      go c { s with passes := s.passes ++ [p] } rest

/-- Runs a pass now, after those that are waiting. A closed session gives no report. -/
def reprocess (w : World) (c : Cache) (s : Session) : Option Report × Session × Cache :=
  let (s, c) := s.settle w c
  let (p, s, c) := Pass.run w c s ⟨false, .queued⟩
  (p.report?, { s with passes := s.passes ++ [p] }, c)

/-- Does the work of a pass without going through the gate. -/
def reprocessUnguarded (w : World) (c : Cache) (s : Session) :
    Option Report × Session × Cache :=
  let (p, s, c) := Pass.work w c s ⟨false, .entered⟩
  (p.report?, s, c)

end Session

end ScriptSessions
