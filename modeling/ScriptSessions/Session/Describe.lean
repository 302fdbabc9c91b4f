import ScriptSessions.Session.Basic
import ScriptSessions.Text.Quoted

set_option autoImplicit false

/-! # Descriptions for the log

How requests, projects and sessions are described in messages to a developer: the name of the
record, and its fields in braces. Texts stand in quotes. A record that does not show all of
its fields ends in two dots.
-/

namespace ScriptSessions

open Text

/-! ## Parts of a description -/

/-- A record with the given fields. -/
def describeRecord (name : String) (fields : List (String × String)) : String :=
  let shown := fields.map fun f => f.1 ++ ": " ++ f.2
  name ++ " \x7b " ++ ", ".intercalate shown ++ " \x7d"

/-- A record that shows the given fields and has others. -/
def describePartly (name : String) (fields : List (String × String)) : String :=
  let shown := fields.map fun f => f.1 ++ ": " ++ f.2
  name ++ " \x7b " ++ ", ".intercalate (shown ++ [".."]) ++ " \x7d"

/-- A truth value. -/
def describeFlag (b : Bool) : String := if b then "true" else "false"

/-! ## Records -/

/-- The description of compilation options. -/
def CompilationOptions.describe (o : CompilationOptions) : String :=
  describeRecord "CompilationOptions"
    [("language_version", quoted o.languageVersion),
     ("optimize", describeFlag o.optimize),
     ("allow_unsafe", describeFlag o.allowUnsafe),
     ("check_overflow", describeFlag o.checkOverflow),
     ("warning_level", toString o.warningLevel.toNat)]

/-- The description of a request to open a session, which gives the length of the text in
UTF-8 and not the text. -/
def OpenRequest.describe (r : OpenRequest) : String :=
  describeRecord "SessionOpenOptions"
    [("text_len", toString r.text.utf8ByteSize),
     ("working_directory", quoted r.workingDirectory.text),
     ("compilation_options", match r.options with
        | none => "None"
        | some o => "Some(" ++ o.describe ++ ")"),
     ("on_diagnostics", describeFlag r.wantsDiagnostics),
     ("on_text_changed", describeFlag r.wantsText)]

/-- The description of a project, which tells how many default references it has. -/
def Project.describe (defaults : Reference.DefaultSet) (p : Project) : String :=
  describePartly "ScriptProject"
    [("name", quoted p.name),
     ("document_name", quoted p.documentName),
     ("working_directory", quoted p.workingDirectory.text),
     ("default_references", toString defaults.size)]

/-- The description of a session that was created at the given time. -/
def Session.describe (defaults : Reference.DefaultSet) (createdAt : String) (s : Session) :
    String :=
  describePartly "Session"
    [("id", s.id.toText),
     ("project", s.project.describe defaults),
     ("created_at", createdAt),
     ("closed", describeFlag s.closed)]

end ScriptSessions
