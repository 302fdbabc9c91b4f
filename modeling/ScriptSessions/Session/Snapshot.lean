set_option autoImplicit false

/-! # Snapshots of a document

A snapshot is a document at one version: its text and the options it is compiled with. An
edit derives a new snapshot from one that was read before; the new snapshot remembers the
version that it was derived from, so that it can be told whether the document has moved on in
the meantime.

Versions are 64-bit words, and the version after the last one is zero.
-/

namespace ScriptSessions

/-- How a script is compiled. -/
structure CompilationOptions where
  languageVersion : String := "latest"
  optimize : Bool := false
  allowUnsafe : Bool := true
  checkOverflow : Bool := false
  warningLevel : UInt8 := 4
deriving DecidableEq, Repr

instance : Inhabited CompilationOptions := ⟨{}⟩

/-- A document at one version. -/
structure Snapshot where
  version : UInt64
  /-- The version that this snapshot was derived from. -/
  baseVersion : UInt64
  text : String
  options : CompilationOptions
deriving DecidableEq, Repr, Inhabited

namespace Snapshot

/-- The first snapshot of a document. -/
def initial (text : String) (options : CompilationOptions) : Snapshot := ⟨0, 0, text, options⟩

/-- The snapshot after a change of the text. -/
def withText (s : Snapshot) (text : String) : Snapshot :=
  ⟨s.version + 1, s.version, text, s.options⟩

/-- The snapshot after a change of the options. -/
def withOptions (s : Snapshot) (options : CompilationOptions) : Snapshot :=
  ⟨s.version + 1, s.version, s.text, options⟩

end Snapshot

end ScriptSessions
