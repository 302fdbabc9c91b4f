import ScriptSessions.Uuid

set_option autoImplicit false

/-! # Diagnostics

A diagnostic is a message about a script with a code, a severity and, when it is known, the
line it concerns. Lines are counted from zero, and shown counted from one. A line is a 64-bit
word, and the word after the last one is zero.

The compiler tells of the diagnostics of a session in an event, which names the version of
the document that they were computed for.
-/

namespace ScriptSessions

/-- How serious a diagnostic is, from least to most. -/
inductive Severity where
  | hidden
  | info
  | warning
  | error
deriving DecidableEq, Repr, Inhabited

namespace Severity

/-- The severities in increasing order. -/
def all : List Severity := [.hidden, .info, .warning, .error]

/-- The word for a severity. -/
def label : Severity → String
  | .hidden => "hidden"
  | .info => "info"
  | .warning => "warning"
  | .error => "error"

/-- The severity that a word stands for. -/
def ofLabel? (s : String) : Option Severity := all.find? (·.label == s)

theorem ofLabel?_label (s : Severity) : ofLabel? s.label = some s := by
  cases s <;> decide

/-- The rank of a severity. -/
def rank : Severity → Nat
  | .hidden => 0
  | .info => 1
  | .warning => 2
  | .error => 3

/-- The graver of two severities. -/
def max (a b : Severity) : Severity := if a.rank ≤ b.rank then b else a

end Severity

/-- A message about a script. -/
structure Diagnostic where
  code : String
  severity : Severity
  message : String
  /-- The line in the document, counted from zero. -/
  line : Option UInt64 := none
deriving DecidableEq, Repr, Inhabited

namespace Diagnostic

/-- Whether a diagnostic is an error. -/
def isError (d : Diagnostic) : Bool := d.severity == .error

/-- The text of a diagnostic. -/
def render (d : Diagnostic) : String :=
  let body := s!"{d.severity.label} {d.code}: {d.message}"
  match d.line with
  | none => body
  | some line => s!"({(line + 1).toNat}) {body}"

/-- The number of errors in a list of diagnostics. -/
def errorCount (ds : List Diagnostic) : Nat := (ds.filter isError).length

/-- The gravest severity in a list of diagnostics. -/
def gravest? (ds : List Diagnostic) : Option Severity :=
  ds.foldl (fun acc d => some ((acc.map (·.max d.severity)).getD d.severity)) none

end Diagnostic

/-- News of the diagnostics of a session. -/
structure DiagnosticsEvent where
  sessionId : Uuid
  documentVersion : UInt64
  diagnostics : List Diagnostic
deriving DecidableEq, Inhabited

/-- The number of errors in an event. -/
def DiagnosticsEvent.errorCount (e : DiagnosticsEvent) : Nat :=
  Diagnostic.errorCount e.diagnostics

end ScriptSessions
