import ScriptSessions.Host.ConfigFile
import ScriptSessions.Path.RawNames
import ScriptSessions.World

set_option autoImplicit false

/-! # Finding the configuration

A configuration file that is named explicitly is read as it is. Otherwise the first regular
file counts among `scripthost.toml` and `.scripthost/config.toml` in the working directory
and `.scripthost/config.toml` in the home directory; if there is none, the defaults hold. A
file that is found but cannot be read is an error, and no other file is tried in its place.
-/

namespace ScriptSessions

/-! ## Fixed places -/

namespace Config

/-- The hidden directory for the files of the host. -/
def hostDirectory (dir : Path) : Path := dir / ".scripthost"

/-- The configuration file in the hidden directory. -/
def hiddenFile (dir : Path) : Path := hostDirectory dir / "config.toml"

/-- The configuration file in plain sight. -/
def plainFile (dir : Path) : Path := dir / "scripthost.toml"

end Config

/-- What a program is told about a machine beside its files: the variables that tell where the home
directory is, and the raw names. A raw name is met on the way to a script. The current directory,
the home directory and the places that a configuration names are texts. -/
structure Environment where
  home : Option String := none
  userProfile : Option String := none
  rawNames : List RawName := []
deriving DecidableEq, Repr, Inhabited

/-- The home directory. -/
def Environment.homeDirectory? (e : Environment) : Option Path :=
  (e.home.or e.userProfile).map Path.mk

/-! ## Errors -/

/-- Why a configuration cannot be had or kept. -/
inductive ConfigError where
  | unreadable (path : Path) (cause : FileError)
  | malformedFile (path : Path)
  | unwritable (path : Path) (cause : FileError)
  /-- A text that does not come from a file is no configuration. -/
  | malformedText
deriving DecidableEq, Repr, Inhabited

namespace ConfigError

/-- What went wrong. -/
def message : ConfigError → String
  | .unreadable path _ => s!"Failed to read config file {path}"
  | .malformedFile path => s!"Failed to parse config file {path}"
  | .unwritable path _ => s!"Failed to write config file {path}"
  | .malformedText => "Failed to parse host config"

/-- What went wrong, and why. -/
def details (e : ConfigError) : String :=
  match e with
  | .unreadable _ cause | .unwritable _ cause => e.message ++ ": " ++ cause.message
  | .malformedFile _ | .malformedText => e.message

end ConfigError

/-! ## Reading and writing -/

namespace Config

/-- The configuration in a text. -/
def ofText (s : String) : Except ConfigError Config :=
  match ofToml? s with
  | none => .error .malformedText
  | some c => .ok c

/-- The configuration in a file. -/
def readFile (w : World) (p : Path) : Except ConfigError Config :=
  match w.readText p with
  | .error cause => .error (.unreadable p cause)
  | .ok text =>
    match ofToml? text with
    | none => .error (.malformedFile p)
    | some c => .ok c

/-- Writes a configuration to a file. -/
def writeFile (w : World) (p : Path) (c : Config) : Except ConfigError World :=
  match w.writeText p c.toToml with
  | .error cause => .error (.unwritable p cause)
  | .ok w => .ok w

/-! ## Searching -/

/-- The places where a configuration may be, in order of preference. -/
def candidates (env : Environment) (dir : Path) : List Path :=
  [plainFile dir, hiddenFile dir] ++ env.homeDirectory?.toList.map hiddenFile

/-- The configuration file that counts for a directory. -/
def findIn (w : World) (env : Environment) (dir : Path) : Option Path :=
  (candidates env dir).find? w.isFile

/-- The configuration that counts for a directory. -/
def discoverIn (w : World) (env : Environment) (dir : Path) : Except ConfigError Config :=
  match findIn w env dir with
  | none => .ok {}
  | some p => readFile w p

/-- The configuration in the given file, or the one for the current directory. -/
def load (w : World) (env : Environment) (file : Option Path) : Except ConfigError Config :=
  match file with
  | some p => readFile w p
  | none => discoverIn w env w.directory

end Config

end ScriptSessions
