import ScriptSessions.CommandLine.Args
import ScriptSessions.Host.Basic
import ScriptSessions.Host.Discovery
import ScriptSessions.Json.Printer
import ScriptSessions.Json.Records
import ScriptSessions.Text.Quoted

set_option autoImplicit false

/-! # Running commands

A command turns the files it sees into an `Outcome`: an exit status, the text for the
standard output, and possibly an error. The status is 0 if all is well, 1 if a script has
errors or a command fails, and 2 if the command line asks for nothing that can be done. One way
to fail is to have a path to write into JSON that is no text.
-/

namespace ScriptSessions.CommandLine

/-- What a run of the program leaves behind. -/
structure Outcome where
  status : UInt8 := 0
  output : String := ""
  error : Option String := none
deriving DecidableEq, Repr, Inhabited

/-- Lines as a text, each ended by a newline. -/
def unlines (lines : List String) : String := String.join (lines.map (· ++ "\n"))

/-- A failure with the given text. -/
def Outcome.failure (status : UInt8) (message : String) : Outcome :=
  { status, error := some message }

/-! ## Checking a script -/

/-- The directory that the directives of a script are relative to. -/
def scriptDirectory (script : Path) : Path :=
  match script.parent? with
  | none => ⟨"."⟩
  | some p => if p.text = "" then ⟨"."⟩ else p

/-- The directory of the session in which a script is checked. -/
def sessionDirectory (w : World) (script : Path) : Path :=
  (Path.absolute? w.directory (scriptDirectory script)).getD (scriptDirectory script)

/-- The location of a reference value that leads through a raw name. A location is a text, so it
holds what is shown of the name. -/
def rawLocation? (raw : List RawName) (directory : Path) (value : String) : Option String :=
  match Resolver.locationUnder directory value with
  | .error _ => none
  | .ok l => if Path.isText raw ⟨l⟩ then none else some (Text.shown raw l)

/-- The reference values that lead through a raw name, with their locations. -/
def rawLocations (raw : List RawName) (directory : Path) (values : List String) :
    List (String × String) :=
  values.filterMap fun v => (rawLocation? raw directory v).map fun l => (v, l)

/-- The host that a command sets up: passes run only when they are asked for. -/
def quietHost (w : World) (config : Config) (references : List String)
    (overrides : List (String × String) := []) : Host :=
  .new w { config with
    extraReferences := config.extraReferences ++ references
    reprocessOnOpen := false } overrides

/-- The report on a text that is opened as a session with the given identifier. -/
def reportOn (w : World) (host : Host) (id : Uuid) (text : String) (directory : Path) :
    Option CheckReport := do
  let (_, host) := host.open? w { text, workingDirectory := directory } [id]
  let (report, host) := host.reprocess w id
  let _ ← report
  (host.get? id).map CheckReport.ofSession

/-- The outcome of a check whose report is printed. -/
def checkOutcome (json : Bool) (report : CheckReport) : Outcome :=
  { status := if report.hasErrors then 1 else 0
    output := if json then report.toJson.render ++ "\n" else report.render }

/-- The outcome of a check with a given report. There is no JSON for a path that is no text. -/
def reportOutcome (raw : List RawName) (json : Bool) (report : CheckReport) : Outcome :=
  if json && !report.paths.all (·.isText raw) then
    .failure 1 "path contains invalid UTF-8 characters"
  else checkOutcome json (report.shown raw)

/-- Checks a script. -/
def checkScript (w : World) (env : Environment) (id : Uuid) (script : Path)
    (config : Option Path) (references : List String) (json : Bool) : Outcome :=
  match Config.load w env config with
  | .error e => .failure 1 (Text.shown env.rawNames e.details)
  | .ok config =>
    match w.readText script with
    | .error cause =>
      .failure 1 (Text.shown env.rawNames s!"Failed to read script {script}: " ++ cause.message)
    | .ok text =>
      let values := (distinctDirectives (Directive.scan text)).filterMap Directive.referenceValue?
      let locations := rawLocations env.rawNames (sessionDirectory w script) values
      match reportOn w (quietHost w config references locations) id text
          (scriptDirectory script) with
      | none => .failure 1 "Session closed before reprocessing"
      | some report => reportOutcome env.rawNames json report

/-! ## Showing the defaults and the configuration -/

/-- The lines that list the default references and imports. -/
def defaultsLines (defaults : Reference.DefaultSet) : List String :=
  let reference (e : Reference.Entry) : String :=
    s!"  {e.name} -> {e.path}" ++ if defaults.isFacade e.name then " [facade]" else ""
  CheckReport.heading "Default references" defaults.size ::
      defaults.references.map reference ++
    CheckReport.heading "Default imports" defaults.imports.length ::
      defaults.imports.map fun i => "  " ++ i

/-- Lists the default references and imports. -/
def listDefaults (w : World) (env : Environment) (config : Option Path) : Outcome :=
  match Config.load w env config with
  | .error e => .failure 1 e.details
  | .ok config => { output := unlines (defaultsLines (quietHost w config []).defaults) }

/-- What stands at a place where a configuration may be. -/
def placeStatus (w : World) (p : Path) : String :=
  if w.isFile p then "EXISTS" else if w.holds p then "NOT A FILE" else "NOT FOUND"

/-- The lines that show where the configuration is looked for. -/
def discoveryLines (w : World) (env : Environment) : List String :=
  let place (p : Path) (index : Nat) : String :=
    s!"  {index}. " ++ Text.quoted p.text ++ " - " ++ placeStatus w p
  let active := match Config.findIn w env w.directory with
    | none => "Built-in defaults"
    | some p => Text.quoted p.text
  ["Configuration Discovery Hierarchy:", ""] ++
    ((Config.candidates env w.directory).zipIdx 1).map (fun c => place c.1 c.2) ++
    ["", "Active configuration: " ++ active]

/-! ## The program -/

/-- Runs a command. -/
def Command.run (w : World) (env : Environment) (id : Uuid) : Command → Outcome
  | .check script config references json => checkScript w env id script config references json
  | .defaults config => listDefaults w env config
  | .showConfig => { output := unlines (discoveryLines w env) }

/-- The version of the program. -/
def version : String := "0.1.0"

/-- The text of the answer to a question for the version. -/
def versionText : String := s!"scripthost {version}\n"

/-- Runs the program on the words of a command line. A session that is opened gets the given
identifier. -/
def run (w : World) (env : Environment) (id : Uuid) (words : List String) : Outcome :=
  match Args.ofWords words with
  | .error .versionRequested => { output := versionText }
  | .error e => { status := e.exitCode }
  | .ok args =>
    match args.mode with
    | .error e => .failure 2 e.message
    | .ok command => command.run w env id

end ScriptSessions.CommandLine
