import ScriptSessions.CommandLine.Places

set_option autoImplicit false

/-! # The program

Looks up the files that a command line asks for, runs the command on them, and passes on what
it prints and its exit status.
-/

namespace ScriptSessions.CommandLine

/-- The files found so far with what stands at a path and at the directories above it. The
content of a file is read only on demand; a file that cannot be read is left out. -/
def survey (content : Bool) (w : World) (p : Path) : IO World := do
  let names := Path.names w.directory p
  let here ← IO.currentDir
  let above := (List.range names.length).map fun n => Path.ofNames (names.take n)
  let mut w := w
  for place in above ++ [Path.ofNames names] do
    if ← (here / place.text).isDir then
      w := w.makeDirectories place
    else if ← (here / place.text).pathExists then
      try
        let bytes ← if content then IO.FS.readBinFile place.text else pure .empty
        w := w.putFile place (.bytes bytes)
      catch _ => pure ()
  return w

/-- The files found so far with the entries of a directory. -/
def surveyDirectory (w : World) (dir : Path) : IO World := do
  let here ← IO.currentDir
  let w ← survey false w dir
  let place := Path.ofNames (Path.names w.directory dir)
  try
    (← (here / place.text).readDir).toList.foldlM (fun w e => survey false w (place / e.fileName)) w
  catch _ => return w

/-- The files that a command looks at. -/
def surveyCommand (env : Environment) (w : World) (c : Command) : IO World := do
  let w ← (c.texts env w.directory).foldlM (survey true) w
  match Config.load w env c.config? with
  | .error _ => return w
  | .ok config =>
    let w ← (c.places w config).foldlM (survey false) w
    (configDirectories config).foldlM surveyDirectory w

/-- An identifier for a session: random digits, apart from the two that tell the kind of the
identifier. -/
def freshId : IO Uuid := do
  let digits ← (List.range 32).mapM fun i => do
    let d ← IO.rand 0 15
    return Text.toHexDigits 1 (if i = 12 then 4 else if i = 16 then 8 + d % 4 else d)
  return (Uuid.ofDigits? digits.flatten).getD .nil

/-- Runs the program on the words of its command line. -/
def runProgram (words : List String) : IO UInt8 := do
  let env : Environment := { home := ← IO.getEnv "HOME", userProfile := ← IO.getEnv "USERPROFILE" }
  let directory : Path := ⟨(← IO.currentDir).toString⟩
  let start : World := ⟨directory, FileTree.empty.makeDirectories directory.steps⟩
  let w ← match (Args.ofWords words).toOption.bind fun a => a.mode.toOption with
    | none => pure start
    | some command => surveyCommand env start command
  let outcome := run w env (← freshId) words
  IO.print outcome.output
  match outcome.error with
  | none => pure ()
  | some message => IO.eprintln ("Error: " ++ message)
  return outcome.status

end ScriptSessions.CommandLine

/-- The entry point. -/
def main (args : List String) : IO UInt32 := do
  return (← ScriptSessions.CommandLine.runProgram args).toUInt32
