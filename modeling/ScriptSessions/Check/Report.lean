import ScriptSessions.Path.RawNames
import ScriptSessions.Session.Basic

set_option autoImplicit false

/-! # The report on a checked script

Checking a script runs one pass over its directives and reports what the pass found. The
report is shown as a list of lines, or written as JSON.
-/

namespace ScriptSessions

/-- A reference in the report on a script. -/
structure ReportedReference where
  name : String
  path : Path
  /-- Whether a documentation file was found. -/
  documented : Bool
deriving DecidableEq, Repr, Inhabited

/-- What the last pass over a script found. -/
structure CheckReport where
  sessionId : Uuid
  projectName : String
  textVersion : UInt64
  directives : List String
  references : List ReportedReference
  loadedScripts : List Path
  diagnostics : List Diagnostic
deriving DecidableEq, Inhabited

/-- An entry as it is reported. -/
def ReportedReference.ofEntry (e : Reference.Entry) : ReportedReference :=
  { name := e.name, path := e.path, documented := !e.documentation.isEmpty }

namespace CheckReport

/-- The report on what the last pass over a session found. -/
def ofSession (s : Session) : CheckReport :=
  { sessionId := s.id
    projectName := s.project.name
    textVersion := s.findings.textVersion
    directives := s.findings.directives
    references := s.findings.references.map .ofEntry
    loadedScripts := s.findings.loadedScripts
    diagnostics := s.findings.diagnostics }

/-- Whether some diagnostic in the report is an error. -/
def hasErrors (r : CheckReport) : Bool := r.diagnostics.any (·.isError)

/-- The paths in a report. -/
def paths (r : CheckReport) : List Path := r.references.map (·.path) ++ r.loadedScripts

/-! ## Showing a report -/

/-- A report with what is shown of the raw names in it. -/
def shown (raw : List RawName) (r : CheckReport) : CheckReport :=
  { r with
    references := r.references.map fun e => { e with path := e.path.shown raw }
    loadedScripts := r.loadedScripts.map (·.shown raw)
    diagnostics := r.diagnostics.map fun d => { d with message := Text.shown raw d.message } }

@[simp] theorem shown_nil (r : CheckReport) : r.shown [] = r := by
  simp [shown]

@[simp] theorem hasErrors_shown (raw : List RawName) (r : CheckReport) :
    (r.shown raw).hasErrors = r.hasErrors := by
  simp [hasErrors, shown, Function.comp_def, Diagnostic.isError]

/-- A heading with the number of lines below it. -/
def heading (title : String) (count : Nat) : String := s!"{title} ({count}):"

/-- The lines of a report. Scripts are listed only if there are any. -/
def lines (r : CheckReport) : List String :=
  let reference (e : ReportedReference) : String :=
    s!"  {e.name} -> {e.path}" ++ if e.documented then " [docs]" else ""
  [s!"Session {r.sessionId} ({r.projectName})"] ++
    heading "Directives" r.directives.length ::
      (r.directives.map fun d => "  #r \"" ++ d ++ "\"") ++
    heading "References" r.references.length :: r.references.map reference ++
    (if r.loadedScripts = [] then []
      else heading "Loaded scripts" r.loadedScripts.length ::
        r.loadedScripts.map fun p => "  " ++ p.text) ++
    heading "Diagnostics" r.diagnostics.length ::
      r.diagnostics.map fun d => "  " ++ d.render

/-- The text of a report, every line of it ended by a newline. -/
def render (r : CheckReport) : String := String.join (r.lines.map (· ++ "\n"))

end CheckReport

end ScriptSessions
