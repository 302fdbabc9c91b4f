import ScriptSessions.Reference.DefaultSet
import ScriptSessions.Session.Findings
import ScriptSessions.Session.Resolver
import ScriptSessions.Session.Snapshot

set_option autoImplicit false

/-! # Sessions

A session is one open script document: its current snapshot, what the last pass over its
directives found, and the passes that are under way. Updates are optimistic: a snapshot is
accepted only if it was derived from the current one, so nothing that another client wrote is
overwritten unseen.

The *gate* of a session lets one pass at a time do its work and one more wait. A request that
arrives while a pass is waiting is folded into that pass, which will read the newest text.
Closing a session is final.
-/

namespace ScriptSessions

open Reference

/-! ## Passes -/

/-- What a pass reports. -/
structure Report where
  /-- The number of the pass, zero if its findings were not stored. -/
  number : UInt64
  textVersion : UInt64
  /-- The number of entries found. -/
  resolved : Nat
  /-- The number of diagnostics. -/
  failures : Nat
  /-- Whether the findings were stored. -/
  committed : Bool
deriving DecidableEq, Repr, Inhabited

/-- The number of a reported pass as a natural number. -/
def Report.pass (r : Report) : Nat := r.number.toNat

/-- How far a pass has come. -/
inductive Pass.Stage where
  /-- The pass waits for the lock of the gate. -/
  | queued
  /-- The pass has the lock and is about to read the snapshot. -/
  | entered
  /-- These directives are still to be accounted for; the first of them may be on its way
  through the cache. -/
  | resolving (todo : List Directive) (found : Findings) (fetch : Option Fetch)
  /-- The work is done, and the lock is about to be released. -/
  | leaving (report : Option Report)
  /-- The pass is over. Without a report, its session was closed. -/
  | ended (report : Option Report)

/-- A pass over the directives of a session. A scheduled pass is the one that requests are
folded into while it waits; it stops at the next opportunity when the session closes. -/
structure Pass where
  scheduled : Bool
  stage : Pass.Stage

namespace Pass

/-- Whether a pass holds the lock of the gate. -/
def isInside (p : Pass) : Bool :=
  match p.stage with
  | .entered | .resolving _ _ _ | .leaving _ => true
  | .queued | .ended _ => false

/-- Whether a pass has not got the lock yet. -/
def isQueued (p : Pass) : Bool :=
  match p.stage with
  | .queued => true
  | _ => false

/-- Whether a pass is over. -/
def isEnded (p : Pass) : Bool :=
  match p.stage with
  | .ended _ => true
  | _ => false

/-- The fetch that a pass is waiting for. -/
def fetch? (p : Pass) : Option Fetch :=
  match p.stage with
  | .resolving _ _ fetch => fetch
  | _ => none

/-- The report of a pass that has done its work. -/
def report? (p : Pass) : Option Report :=
  match p.stage with
  | .leaving report | .ended report => report
  | _ => none

end Pass

/-- The gate of a session. -/
structure Gate where
  /-- Whether a scheduled pass has not got the lock yet. -/
  pending : Bool := false
  /-- The number of requests that were folded into a waiting pass. -/
  coalesced : UInt64 := 0
  /-- Whether some pass has the lock. -/
  locked : Bool := false
deriving DecidableEq, Repr, Inhabited

/-! ## The record of a session -/

/-- The compilation unit of a session: one script project with one document. -/
structure Project where
  name : String
  documentName : String := "main.csx"
  workingDirectory : Path
deriving DecidableEq, Repr, Inhabited

/-- One open script document. -/
structure Session where
  id : Uuid
  project : Project
  resolver : Resolver
  /-- Whether a callback wants to hear of changes of the text. -/
  announcesText : Bool := false
  snapshot : Snapshot
  /-- What the last pass found. -/
  findings : Findings := {}
  /-- Whether the session is closed. -/
  closed : Bool := false
  /-- Whether diagnostics may still be delivered. -/
  delivering : Bool := true
  gate : Gate := {}
  /-- All passes that were ever asked for, in order. -/
  passes : List Pass := []

instance : Inhabited Session :=
  ⟨{ id := default, project := default, resolver := default, snapshot := default }⟩

/-- What a session is opened with. -/
structure OpenRequest where
  text : String := ""
  workingDirectory : Path := ⟨""⟩
  /-- The options to compile with, if not those of the host. -/
  options : Option CompilationOptions := none
  /-- Whether a callback wants to hear of diagnostics. -/
  wantsDiagnostics : Bool := false
  /-- Whether a callback wants to hear of changes of the text. -/
  wantsText : Bool := false
deriving DecidableEq, Repr, Inhabited

/-- Why an update is refused. -/
inductive UpdateError where
  | closed (id : Uuid)
  | stale (id : Uuid) (basedOn current : UInt64)
deriving DecidableEq, Inhabited

namespace UpdateError

/-- The text of a refusal. -/
def message : UpdateError → String
  | .closed id => s!"Session {id} is closed"
  | .stale id basedOn current =>
    s!"Stale snapshot for session {id}: based on version {basedOn}, current version is {current}"

/-- Whether the client may try again with a fresh snapshot. -/
def isRetryable : UpdateError → Bool
  | .closed _ => false
  | .stale _ _ _ => true

end UpdateError

namespace Session

/-- A new session. Its working directory is made absolute, and everything that its
directives name is relative to that directory, except for the values whose locations are
given by `overrides`. -/
def create (cwd : Path) (id : Uuid) (projectName : String) (request : OpenRequest)
    (options : CompilationOptions) (overrides : List (String × String)) : Session :=
  let directory := (Path.absolute? cwd request.workingDirectory).getD request.workingDirectory
  { id
    project := { name := projectName, workingDirectory := directory }
    resolver :=
      { workingDirectory := directory
        answer? := fun value => (overrides.lookup value).map .ok }
    announcesText := request.wantsText
    snapshot := .initial request.text options }

/-! ## Reading -/

/-- The references that a session sees: the default ones, and then those of its directives
that are not among them. -/
def references (defaults : DefaultSet) (s : Session) : List Entry :=
  s.findings.references.foldl Findings.addEntry defaults.references

/-- Whether a directive of the session resolved to a module of this name. -/
def hasDirectiveReference (s : Session) (name : String) : Bool :=
  s.findings.references.any (·.module.matchesName name)

/-- Whether diagnostics are still delivered to the session. -/
def acceptsDiagnostics (s : Session) : Bool := s.delivering && !s.closed

/-! ## Changing -/

/-- Replaces the snapshot of a session by one that was derived from it. -/
def update (s : Session) (next : Snapshot) : Except UpdateError Session :=
  if s.closed then .error (.closed s.id)
  else if next.baseVersion ≠ s.snapshot.version ∨ next.version ≤ s.snapshot.version then
    .error (.stale s.id next.baseVersion s.snapshot.version)
  else .ok { s with snapshot := next }

/-- Marks a session as closed without stopping the delivery of diagnostics. -/
def cancel (s : Session) : Session := { s with closed := true }

/-- Closes a session. -/
def close (s : Session) : Session := { s with closed := true, delivering := false }

end Session

end ScriptSessions
