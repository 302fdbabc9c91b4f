import ScriptSessions.CommandLine.Run

set_option autoImplicit false

/-! # The places a command looks at

A command sees no more of a machine than the files it is given. Before it runs, the files at
these places are looked up: first the files that are read for their text, then the
directories that the configuration names, and last what the directives of the script and the
extra references lead to.
-/

namespace ScriptSessions.CommandLine

/-- The configuration file that a command names. -/
def Command.config? : Command → Option Path
  | .check _ config _ _ => config
  | .defaults config => config
  | .showConfig => none

/-- The script that a command names. -/
def Command.script? : Command → Option Path
  | .check script _ _ _ => some script
  | .defaults _ | .showConfig => none

/-- The locations that a command adds to the default references. -/
def Command.references : Command → List String
  | .check _ _ references _ => references
  | .defaults _ | .showConfig => []

/-- The files that a command reads in the directory `cwd`. -/
def Command.texts (env : Environment) (cwd : Path) (c : Command) : List Path :=
  c.config?.toList ++ c.script?.toList ++ Config.candidates env cwd

/-- The directories that a configuration names, and the directory of facades. -/
def configDirectories (config : Config) : List Path :=
  config.searchDirectories ++ config.documentationPath.toList ++
    config.referenceAssembliesPath.toList.map Reference.facadesDirectory

/-- The module at a location and the file that documents it. -/
def modulePlaces (cwd : Path) (location : String) : List Path :=
  let p : Path := ⟨Text.trim location⟩
  [p, Documentation.key cwd p]

/-- The places that a directive leads to. -/
def directivePlaces (cwd : Path) (resolver : Resolver) (d : Directive) : List Path :=
  match d.kind with
  | .load => [resolver.scriptPath d.value]
  | .reference =>
    match resolver.location d.value with
    | .error _ => []
    | .ok location => modulePlaces cwd location

/-- The places that the directives of a script lead to. -/
def scriptPlaces (cwd script : Path) (text : String) : List Path :=
  let directory := (Path.absolute? cwd (scriptDirectory script)).getD cwd
  (Directive.scan text).flatMap (directivePlaces cwd { workingDirectory := directory })

/-- The places that are looked at once the texts and the configuration of a command are
known. -/
def Command.places (w : World) (config : Config) (c : Command) : List Path :=
  let script := match c.script? with
    | none => []
    | some p =>
      match w.readText p with
      | .error _ => []
      | .ok text => scriptPlaces w.directory p text
  (config.extraReferences ++ c.references).flatMap (modulePlaces w.directory) ++ script

end ScriptSessions.CommandLine
