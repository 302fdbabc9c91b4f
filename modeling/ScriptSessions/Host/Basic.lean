import ScriptSessions.Host.Config
import ScriptSessions.Workspace

set_option autoImplicit false

/-! # Hosts

A host is a workspace set up by a configuration. Clients open, read, update and close
sessions by identifier; whatever they ask of an identifier that is not open has an empty
answer. The compiler sends its news into a mailbox, whose events are handled in the order in
which they were sent until the host is shut down.
-/

namespace ScriptSessions

open Reference

/-- A host of script sessions. -/
structure Host where
  config : Config
  workspace : Workspace
  /-- Locations that every session resolves by this table first. -/
  overrides : List (String × String) := []
  /-- Whether the mailbox is open. -/
  listening : Bool := true
  /-- The events that have been sent and not yet handled. -/
  mailbox : List DiagnosticsEvent := []
  /-- Whether the mailbox has been looked at since the host was set up. -/
  attended : Bool := false
deriving Inhabited

/-- What becomes of an update. -/
inductive UpdateOutcome where
  | applied (version : UInt64)
  /-- No session is open under the identifier. -/
  | sessionNotFound
deriving DecidableEq, Repr, Inhabited

namespace Host

/-! ## Setting up -/

/-- A host for a configuration. Its default references are resolved at once. -/
def new (w : World) (config : Config) (overrides : List (String × String) := []) : Host :=
  let cache := Cache.new config.searchDirectories (.new config.directories)
  let (defaults, cache) := DefaultSet.build w cache
    { extraReferences := config.extraReferences, extraImports := config.extraImports }
  { config, workspace := { cache, defaults }, overrides }

/-- The default references and imports of all sessions. -/
def defaults (h : Host) : DefaultSet := h.workspace.defaults

/-! ## Opening and closing -/

/-- Opens a session under the first of the candidate identifiers that is not taken. Every
candidate that is tried costs a project name. -/
def open? (w : World) (h : Host) (request : OpenRequest) :
    List Uuid → Option SessionNumber × Host
  | [] => (none, h)
  | id :: others =>
    let (name, ws) := h.workspace.nextProjectName
    if ws.registry.contains id then open? w { h with workspace := ws } request others
    else
      let options := request.options.getD h.config.compilationOptions
      let s := Session.create w.directory id name request options h.overrides
      let (n, ws) := ws.addSession s
      let (_, ws) := ws.register n request.wantsDiagnostics
      let ws := if h.config.reprocessOnOpen then (ws.request n s).2 else ws
      (some n, { h with workspace := ws })

/-- Closes the session that is open under an identifier, and says whether there was one. -/
def close (h : Host) (id : Uuid) : Bool × Host :=
  let ws := match h.workspace.open? id with
    | none => h.workspace
    | some (n, s) => h.workspace.setSession n s.close
  let (removed, ws) := ws.unregister id
  (removed.isSome, { h with workspace := ws })

/-- Closes all sessions and the mailbox. -/
def shutdown (h : Host) : Host :=
  let h := h.workspace.registry.ids.foldl (fun h id => (h.close id).2) h
  { h with listening := false, mailbox := [] }

/-! ## Sessions by identifier -/

/-- The session that is open under an identifier. -/
def get? (h : Host) (id : Uuid) : Option Session := (h.workspace.open? id).map (·.2)

/-- Applies an update to the session that is open under an identifier. -/
def update (h : Host) (id : Uuid) (next : Snapshot) : Except UpdateError (UpdateOutcome × Host) :=
  match h.workspace.open? id with
  | none => .ok (.sessionNotFound, h)
  | some (n, s) =>
    match h.workspace.update n s next with
    | .ok ws => .ok (.applied next.version, { h with workspace := ws })
    | .error (.closed _) => .ok (.sessionNotFound, h)
    | .error e => .error e

/-- Runs a pass over the session that is open under an identifier. -/
def reprocess (w : World) (h : Host) (id : Uuid) : Option Report × Host :=
  match h.workspace.open? id with
  | none => (none, h)
  | some (n, s) =>
    let (report, ws) := h.workspace.reprocess w n s
    (report, { h with workspace := ws })

/-- The values of the references that resolved in the last pass over a session. -/
def referenceDirectives (h : Host) (id : Uuid) : List String :=
  ((h.get? id).map (·.findings.directives)).getD []

/-- The failures of the last pass over a session. -/
def sessionDiagnostics (h : Host) (id : Uuid) : List Diagnostic :=
  ((h.get? id).map (·.findings.diagnostics)).getD []

/-- Whether a session sees a module of this name. -/
def hasReference (h : Host) (id : Uuid) (name : String) : Bool :=
  match h.get? id with
  | none => false
  | some s => s.hasDirectiveReference name || h.defaults.containsName name

/-! ## News of diagnostics -/

/-- Handles an event at once. -/
def notify (h : Host) (event : DiagnosticsEvent) : Delivery × Host :=
  let (delivery, ws) := h.workspace.notify event
  (delivery, { h with workspace := ws })

/-- Puts an event into the mailbox, if it is open. -/
def send (h : Host) (event : DiagnosticsEvent) : Host :=
  if h.listening then { h with mailbox := h.mailbox ++ [event] } else h

/-- Handles the oldest event in the mailbox. -/
def listen (h : Host) : Host :=
  match h.mailbox with
  | [] => h
  | event :: rest => ({ h with mailbox := rest }.notify event).2

/-- Handles all events in the mailbox, oldest first. -/
def drain (h : Host) : Host := Nat.repeat listen h.mailbox.length h

/-! ## Running passes and resolving -/

/-- Runs all waiting passes to their end. -/
def runPasses (w : World) (h : Host) : Host := { h with workspace := h.workspace.settle w }

/-- Handles the mailbox and runs all waiting passes to their end. The very first look at the
mailbox comes before any pass. Later the passes that wait when an event is sent start before
the event is handled, so it asks for a pass of its own. -/
def settle (w : World) (h : Host) : Host :=
  let h := if h.attended then h.runPasses w else { h with attended := true }
  h.drain.runPasses w

/-- Resolves a location through the shared cache. -/
def resolve (w : World) (h : Host) (location : String) : Except Error Entry × Host :=
  let (result, ws) := h.workspace.resolve w location
  (result, { h with workspace := ws })

end Host

end ScriptSessions
