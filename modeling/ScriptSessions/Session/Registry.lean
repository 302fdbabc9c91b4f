import ScriptSessions.Uuid

set_option autoImplicit false

/-! # The registry of open sessions

The registry says which session is open under an identifier and which callback, if any, is
told of its diagnostics. Sessions and callbacks are known to it by number only. A taken
identifier is not given again before it is removed, and removing one takes the callback away
together with the session.

The registry also hands out project names: `Script1`, `Script2` and so on. Their number is a
64-bit word, so no name comes twice before all words have been used.
-/

namespace ScriptSessions

/-- The number of a session, counted from zero in the order of creation. -/
abbrev SessionNumber := Nat

/-- The open sessions and their callbacks. -/
structure SessionRegistry where
  sessions : List (Uuid × SessionNumber) := []
  /-- For the sessions with a callback, the number that the callback belongs to. -/
  notifiers : List (Uuid × SessionNumber) := []
  /-- How many project names have been handed out. -/
  namesGiven : UInt64 := 0

instance : Inhabited SessionRegistry := ⟨{}⟩

namespace SessionRegistry

/-! ## Reading -/

/-- The session that is open under an identifier. -/
def get? (r : SessionRegistry) (id : Uuid) : Option SessionNumber := r.sessions.lookup id

/-- Whether a session is open under an identifier. -/
def contains (r : SessionRegistry) (id : Uuid) : Bool := (r.get? id).isSome

/-- The callback of the session that is open under an identifier. -/
def notifier? (r : SessionRegistry) (id : Uuid) : Option SessionNumber := r.notifiers.lookup id

/-- The identifiers of the open sessions. -/
def ids (r : SessionRegistry) : List Uuid := r.sessions.map (·.1)

/-- The number of open sessions. -/
def size (r : SessionRegistry) : Nat := r.sessions.length

/-! ## Changing -/

/-- The project name with a given number. -/
def projectName (n : UInt64) : String := s!"Script{n}"

/-- Hands out the next project name. -/
def nextProjectName (r : SessionRegistry) : String × SessionRegistry :=
  (projectName (r.namesGiven + 1), { r with namesGiven := r.namesGiven + 1 })

/-- Opens a session under an identifier, unless the identifier is taken. -/
def insert (r : SessionRegistry) (id : Uuid) (session : SessionNumber)
    (notifier : Option SessionNumber) : Bool × SessionRegistry :=
  if r.contains id then (false, r)
  else
    (true, { r with
      sessions := r.sessions ++ [(id, session)]
      notifiers := match notifier with
        | none => r.notifiers
        | some n => r.notifiers.filter (·.1 != id) ++ [(id, n)] })

/-- Takes away the session that is open under an identifier, and its callback. -/
def remove (r : SessionRegistry) (id : Uuid) : Option SessionNumber × SessionRegistry :=
  (r.get? id, { r with
    sessions := r.sessions.filter (·.1 != id)
    notifiers := r.notifiers.filter (·.1 != id) })

end SessionRegistry

end ScriptSessions
