import ScriptSessions.Session.Pass
import ScriptSessions.Session.Registry

set_option autoImplicit false

/-! # A workspace of sessions

A workspace holds every session that was ever created, the registry of the open ones, and the
cache that all of them share. News of diagnostics is routed through it: an event for an open
session asks for a pass and is handed to the callback of the session, and any other event is
dropped.

The callbacks of clients are not run here. What they are told is written down in `calls`, in
the order in which it happens.

A pass that was asked for waits in the queue until the workspace is settled. Settling runs
the waiting passes to their end, in the order in which they were asked for.
-/

namespace ScriptSessions

open Reference

/-- What a callback is told. -/
inductive Call where
  /-- The text of a session has changed. -/
  | textChanged (session : SessionNumber) (text : String)
  /-- There is news of the diagnostics of a session. -/
  | diagnostics (session : SessionNumber) (event : DiagnosticsEvent)
deriving DecidableEq, Inhabited

/-- What becomes of an event. -/
inductive Delivery where
  /-- The session is unknown or closed, and nothing happens. -/
  | dropped
  /-- A pass is asked for, and there is no callback. -/
  | noCallback
  /-- A pass is asked for, and the callback is told. -/
  | delivered
deriving DecidableEq, Repr, Inhabited

/-- The sessions of a process and what they share. -/
structure Workspace where
  cache : Cache := .new [] default
  defaults : DefaultSet := {}
  /-- All sessions by number, also the closed ones. -/
  sessions : List Session := []
  registry : SessionRegistry := {}
  /-- The sessions whose scheduled passes wait to be run, in order. -/
  queue : List SessionNumber := []
  /-- What callbacks have been told, in order. -/
  calls : List Call := []

instance : Inhabited Workspace := ⟨{}⟩

namespace Workspace

/-! ## Sessions by number and by identifier -/

/-- The session with a given number. -/
def session? (ws : Workspace) (n : SessionNumber) : Option Session := ws.sessions[n]?

/-- The open session with a given identifier, and its number. -/
def open? (ws : Workspace) (id : Uuid) : Option (SessionNumber × Session) :=
  (ws.registry.get? id).bind fun n => (ws.session? n).map (n, ·)

/-- Puts a session in the place of the one with the given number. -/
def setSession (ws : Workspace) (n : SessionNumber) (s : Session) : Workspace :=
  { ws with sessions := ws.sessions.set n s }

/-- Adds a session that is not registered, and gives its number. -/
def addSession (ws : Workspace) (s : Session) : SessionNumber × Workspace :=
  (ws.sessions.length, { ws with sessions := ws.sessions ++ [s] })

/-- Hands out the next project name. -/
def nextProjectName (ws : Workspace) : String × Workspace :=
  let (name, registry) := ws.registry.nextProjectName
  (name, { ws with registry })

/-- Registers a session under its identifier, with a callback for its diagnostics or without
one. -/
def register (ws : Workspace) (n : SessionNumber) (withCallback : Bool) : Bool × Workspace :=
  match ws.session? n with
  | none => (false, ws)
  | some s =>
    let (ok, registry) := ws.registry.insert s.id n (if withCallback then some n else none)
    (ok, { ws with registry })

/-- Removes the session that is registered under an identifier. -/
def unregister (ws : Workspace) (id : Uuid) : Option SessionNumber × Workspace :=
  let (removed, registry) := ws.registry.remove id
  (removed, { ws with registry })

/-! ## Updates and requests -/

/-- Applies an update to a session, and tells its callback the new text. -/
def update (ws : Workspace) (n : SessionNumber) (s : Session) (next : Snapshot) :
    Except UpdateError Workspace :=
  match s.update next with
  | .error e => .error e
  | .ok s =>
    let ws := ws.setSession n s
    .ok (if s.announcesText then { ws with calls := ws.calls ++ [.textChanged n next.text] }
      else ws)

/-- Asks for a pass over a session. -/
def request (ws : Workspace) (n : SessionNumber) (s : Session) : RequestOutcome × Workspace :=
  let (outcome, s) := s.request
  let ws := ws.setSession n s
  (outcome, if outcome = .scheduled then { ws with queue := ws.queue ++ [n] } else ws)

/-- Handles news of diagnostics. -/
def notify (ws : Workspace) (event : DiagnosticsEvent) : Delivery × Workspace :=
  match ws.open? event.sessionId with
  | none => (.dropped, ws)
  | some (n, s) =>
    if !s.acceptsDiagnostics then (.dropped, ws)
    else
      match ws.request n s with
      | (.closed, ws) => (.dropped, ws)
      | (_, ws) =>
        match ws.registry.notifier? event.sessionId with
        | none => (.noCallback, ws)
        | some callback =>
          (.delivered, { ws with calls := ws.calls ++ [.diagnostics callback event] })

/-! ## Running passes -/

/-- Runs the waiting passes of a session. -/
def settleSession (w : World) (ws : Workspace) (n : SessionNumber) : Workspace :=
  match ws.session? n with
  | none => ws
  | some s =>
    let (s, cache) := s.settle w ws.cache
    { ws.setSession n s with cache }

/-- Runs all waiting passes to their end. -/
def settle (w : World) (ws : Workspace) : Workspace :=
  { ws.queue.foldl (settleSession w) ws with queue := [] }

/-- Runs a pass over a session now. -/
def reprocess (w : World) (ws : Workspace) (n : SessionNumber) (s : Session) :
    Option Report × Workspace :=
  let (report, s, cache) := s.reprocess w ws.cache
  (report, { ws.setSession n s with cache })

/-- Runs a pass over a session now, past its gate. -/
def reprocessUnguarded (w : World) (ws : Workspace) (n : SessionNumber) (s : Session) :
    Option Report × Workspace :=
  let (report, s, cache) := s.reprocessUnguarded w ws.cache
  (report, { ws.setSession n s with cache })

/-- Resolves a location through the shared cache. -/
def resolve (w : World) (ws : Workspace) (location : String) :
    Except Error Entry × Workspace :=
  let (result, cache) := ws.cache.resolve w location
  (result, { ws with cache })

end Workspace

end ScriptSessions
