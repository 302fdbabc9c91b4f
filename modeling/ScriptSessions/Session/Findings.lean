import ScriptSessions.Diagnostic
import ScriptSessions.Reference.Fetch
import ScriptSessions.Session.Directive

set_option autoImplicit false

/-! # What a pass finds

A pass goes through the distinct directives of a text in order and accounts for each one:
a reference that resolves is listed with its entry, a script that exists is listed with its
path, and anything else becomes a diagnostic at the line of the directive. The findings of a
pass are stored as a whole, so that no reader sees a mixture of two passes.
-/

namespace ScriptSessions

open Reference

/-- The outcome of a pass over the directives of a document. -/
structure Findings where
  /-- The values of the references that resolved, in order. -/
  directives : List String := []
  /-- The entries that they resolved to, each once. -/
  references : List Entry := []
  /-- The paths of the scripts to load that exist. -/
  loadedScripts : List Path := []
  /-- The failures. -/
  diagnostics : List Diagnostic := []
  /-- The version of the text that was scanned. -/
  textVersion : UInt64 := 0
  /-- The number of the pass within its session, counted from one. It is a 64-bit word. -/
  number : UInt64 := 0

instance : Inhabited Findings := ⟨{}⟩

/-- The code of the diagnostic for a reference that does not resolve. -/
def unresolvedReferenceCode : String := "SH0001"

/-- The code of the diagnostic for a script that does not exist. -/
def missingScriptCode : String := "SH0002"

namespace Findings

/-- The number of the pass as a natural number. -/
def pass (f : Findings) : Nat := f.number.toNat

/-- A list of entries with one more, unless it is there already. -/
def addEntry (entries : List Entry) (e : Entry) : List Entry :=
  if entries.any (·.sameAs e) then entries else entries ++ [e]

/-- Accounts for a reference, given what its location resolved to. -/
def addReference (f : Findings) (d : Directive) (result : Except Error Entry) : Findings :=
  match result with
  | .ok entry =>
    { f with directives := f.directives ++ [d.value], references := addEntry f.references entry }
  | .error e =>
    { f with diagnostics := f.diagnostics ++
        [{ code := unresolvedReferenceCode, severity := .error,
           message := s!"Unable to resolve reference '{d.value}': {e.message}",
           line := some (UInt64.ofNat d.line) }] }

/-- Accounts for a script to load, given its path and whether a file stands there. -/
def addScript (f : Findings) (d : Directive) (path : Path) (found : Bool) : Findings :=
  if found then { f with loadedScripts := f.loadedScripts ++ [path] }
  else
    { f with diagnostics := f.diagnostics ++
        [{ code := missingScriptCode, severity := .warning,
           message := s!"Script file not found: {path}",
           line := some (UInt64.ofNat d.line) }] }

end Findings

/-- The directives with distinct kind and value, each at its first occurrence. -/
def distinctDirectives (ds : List Directive) : List Directive :=
  ds.foldl (fun acc d =>
    if acc.any (fun e => e.kind == d.kind && e.value == d.value) then acc else acc ++ [d]) []

end ScriptSessions
