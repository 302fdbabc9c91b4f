import ScriptSessions.Path.Basic

set_option autoImplicit false

/-! # Command lines

    scripthost [-v] check SCRIPT [-c FILE] [-r LOCATION]... [--json]
    scripthost [-v] defaults [-c FILE]
    scripthost [-v] show-config

The words of a command line are read from left to right. An option whose value is in the next
word, and a script, are *pending* until something new begins or the words are over; only then
are they looked at. Therefore of two mistakes the one that is reported need not be the first:
an unknown option is reported at once, a missing or bad value of the option before it is not.

After `--` no word is an option or a command any more.
-/

namespace ScriptSessions.CommandLine

/-! ## Commands and errors -/

/-- What the program is asked to do. -/
inductive Command where
  /-- Open a script, resolve its directives and report on it. -/
  | check (script : Path) (config : Option Path) (references : List String) (json : Bool)
  /-- List the default references and imports. -/
  | defaults (config : Option Path)
  /-- Show where the configuration is looked for. -/
  | showConfig
deriving DecidableEq, Repr, Inhabited

/-- A command line that could be read. -/
structure Args where
  verbose : Bool := false
  command : Option Command := none
deriving DecidableEq, Repr, Inhabited

/-- Why a command line ends the program before any command runs. -/
inductive UsageError where
  /-- Nothing is given. -/
  | nothingGiven
  /-- The script is missing. -/
  | missingScript
  /-- The value of an option is missing, or a path is empty. -/
  | invalidValue
  | unknownArgument
  | invalidSubcommand
  /-- Something that may be given once is given again. -/
  | conflict
  /-- A flag is given a value. -/
  | tooManyValues
  /-- Help is asked for. -/
  | helpRequested
  /-- The version is asked for. -/
  | versionRequested
deriving DecidableEq, Repr, Inhabited

/-- The exit status of a program that ends so. -/
def UsageError.exitCode : UsageError → UInt8
  | .helpRequested | .versionRequested => 0
  | _ => 2

/-- Why a command line that could be read asks for nothing that can be done. -/
inductive ModeError where
  | emptyScript
  | noCommand
deriving DecidableEq, Repr, Inhabited

/-- The text of such an error. -/
def ModeError.message : ModeError → String
  | .emptyScript => "Script path must not be empty"
  | .noCommand => "No command given"

/-- The command to run. -/
def Args.mode (a : Args) : Except ModeError Command :=
  match a.command with
  | none => .error .noCommand
  | some (.check script config references json) =>
    if script.text = "" then .error .emptyScript
    else .ok (.check script config references json)
  | some command => .ok command

/-! ## Words -/

/-- What a word before `--` looks like. -/
inductive Word where
  /-- A command or a value. -/
  | value
  /-- The word `--`. -/
  | separator
  /-- An option by its long name, with the value that is attached to it. -/
  | long (name : String) (attached : Option String)
  /-- Options by their letters; the rest of the word may be a value. -/
  | letters (cs : List Char)
deriving DecidableEq, Repr, Inhabited

/-- A text cut at its first equals sign. -/
def cutAtEquals (cs : List Char) : String × Option String :=
  let name := String.ofList (cs.takeWhile (· != '='))
  match cs.dropWhile (· != '=') with
  | [] => (name, none)
  | _ :: value => (name, some (String.ofList value))

/-- What a word looks like. A hyphen alone is a value, and so is a long option without a
name. -/
def Word.ofText (s : String) : Word :=
  match s.toList with
  | ['-', '-'] => .separator
  | '-' :: '-' :: '=' :: _ => .value
  | '-' :: '-' :: cs => .long (cutAtEquals cs).1 (cutAtEquals cs).2
  | '-' :: c :: cs => .letters (c :: cs)
  | _ => .value

/-! ## Options -/

/-- The options of all levels. -/
inductive Switch where
  | verbose
  | help
  | version
  | json
  | config
  | reference
deriving DecidableEq, Repr, Inhabited

namespace Switch

/-- The long name of an option. -/
def name : Switch → String
  | .verbose => "verbose"
  | .help => "help"
  | .version => "version"
  | .json => "json"
  | .config => "config"
  | .reference => "reference"

/-- The letter of an option. -/
def letter? : Switch → Option Char
  | .verbose => some 'v'
  | .help => some 'h'
  | .version => some 'V'
  | .json => none
  | .config => some 'c'
  | .reference => some 'r'

/-- Whether an option has a value. -/
def takesValue : Switch → Bool
  | .config | .reference => true
  | .verbose | .help | .version | .json => false

end Switch

/-- The commands by what may be given to them. -/
inductive Subcommand where
  | check
  | defaults
  | showConfig
deriving DecidableEq, Repr, Inhabited

namespace Subcommand

/-- The subcommand that a word names. -/
def ofName? : String → Option Subcommand
  | "check" => some .check
  | "defaults" => some .defaults
  | "show-config" => some .showConfig
  | _ => none

/-- The options of a subcommand. -/
def switches : Subcommand → List Switch
  | .check => [.verbose, .help, .json, .config, .reference]
  | .defaults => [.verbose, .help, .config]
  | .showConfig => [.verbose, .help]

end Subcommand

/-- The options before a subcommand. -/
def rootSwitches : List Switch := [.verbose, .help, .version]

/-- The word that asks for help on the subcommand that follows. -/
def helpWord : String := "help"

/-- Whether a word names a subcommand or asks for help. -/
def isSubcommandName (s : String) : Bool := s == helpWord || (Subcommand.ofName? s).isSome

/-! ## Reading options -/

/-- What has been begun and not been looked at. -/
inductive Pending where
  | nothing
  /-- An option whose value is expected in a word of its own, and that value once it is
  there. -/
  | option (switch : Switch) (value : Option String)
  | script (value : String)
deriving DecidableEq, Repr, Inhabited

/-- What has been read of the words at one level. -/
structure Reading where
  switches : List Switch
  verbose : Bool := false
  json : Bool := false
  config : Option Path := none
  references : List String := []
  script : Option Path := none
  pending : Pending := .nothing
deriving DecidableEq, Repr, Inhabited

/-- A path as a value. -/
def path? (value : String) : Except UsageError Path :=
  if value = "" then .error .invalidValue else .ok ⟨value⟩

namespace Reading

/-- Takes the value of an option. -/
def give (r : Reading) (switch : Switch) (value : String) : Except UsageError Reading :=
  match switch with
  | .config =>
    if r.config.isSome then .error .conflict
    else (path? value).map fun p => { r with config := some p }
  | .reference => .ok { r with references := r.references ++ [value] }
  | .verbose | .help | .version | .json => .error .tooManyValues

/-- Looks at what is pending. -/
def settle (r : Reading) : Except UsageError Reading :=
  let settled := { r with pending := .nothing }
  match r.pending with
  | .nothing => .ok settled
  | .option _ none => .error .invalidValue
  | .option switch (some value) => settled.give switch value
  | .script value => (path? value).map fun p => { settled with script := some p }

/-- Takes an option that has no value. -/
def raise (r : Reading) (switch : Switch) : Except UsageError Reading :=
  match switch with
  | .verbose => if r.verbose then .error .conflict else .ok { r with verbose := true }
  | .json => if r.json then .error .conflict else .ok { r with json := true }
  | .help => .error .helpRequested
  | .version => .error .versionRequested
  | .config | .reference => .error .invalidValue

/-- Takes an option with the value that is attached to it, if there is one. -/
def take (r : Reading) (switch : Switch) (attached : Option String) :
    Except UsageError Reading := do
  match switch.takesValue, attached with
  | true, some value => (← r.settle).give switch value
  | true, none => return { ← r.settle with pending := .option switch none }
  | false, some _ => .error .tooManyValues
  | false, none => (← r.settle).raise switch

/-- Takes an option by its long name. -/
def takeLong (r : Reading) (name : String) (attached : Option String) :
    Except UsageError Reading :=
  match r.switches.find? (·.name == name) with
  | none => .error .unknownArgument
  | some switch => r.take switch attached

/-- A text without an equals sign at its beginning. -/
def dropEquals : List Char → List Char
  | '=' :: cs => cs
  | cs => cs

/-- Takes options by their letters. An option with a value takes the rest of the word. -/
def takeLetters (r : Reading) : List Char → Except UsageError Reading
  | [] => .ok r
  | c :: cs =>
    match r.switches.find? (·.letter? == some c) with
    | none => .error .unknownArgument
    | some switch =>
      if switch.takesValue then
        r.take switch (if cs = [] then none else some (String.ofList (dropEquals cs)))
      else
        match r.take switch none with
        | .error e => .error e
        | .ok r => takeLetters r cs

/-- Whether a script has been given. -/
def hasScript (r : Reading) : Bool :=
  r.script.isSome ||
    match r.pending with
    | .script _ => true
    | _ => false

/-- Takes a word that is a script, if the subcommand has one and none has been given. -/
def takeScript (r : Reading) (sub : Subcommand) (s : String) : Except UsageError Reading := do
  if sub ≠ .check ∨ r.hasScript then .error .unknownArgument
  else return { ← r.settle with pending := .script s }

/-- Takes a word that is a value: of the pending option, or the script. -/
def takeValue (r : Reading) (sub : Subcommand) (s : String) : Except UsageError Reading :=
  match r.pending with
  | .option switch none => .ok { r with pending := .option switch (some s) }
  | _ => r.takeScript sub s

end Reading

/-! ## Reading a command line -/

/-- Reads the words after a subcommand. -/
def readAfter (sub : Subcommand) (r : Reading) : Bool → List String → Except UsageError Reading
  | _, [] => r.settle
  | true, s :: rest => do readAfter sub (← r.takeScript sub s) true rest
  | false, s :: rest => do
    match Word.ofText s with
    | .separator => readAfter sub r true rest
    | .value => readAfter sub (← r.takeValue sub s) false rest
    | .long name attached => readAfter sub (← r.takeLong name attached) false rest
    | .letters cs => readAfter sub (← r.takeLetters cs) false rest

/-- The command that the words after a subcommand make up. -/
def Reading.command (r : Reading) : Subcommand → Except UsageError Command
  | .check =>
    match r.script with
    | none => .error .missingScript
    | some script => .ok (.check script r.config r.references r.json)
  | .defaults => .ok (.defaults r.config)
  | .showConfig => .ok .showConfig

/-- What becomes of a question for help: it is answered if the words after it lead to a
subcommand. -/
def readHelp : List String → UsageError
  | [] => .helpRequested
  | [s] => if isSubcommandName s then .helpRequested else .invalidSubcommand
  | _ => .invalidSubcommand

/-- Reads the words from the beginning of a command line. -/
def readRoot (r : Reading) : Bool → List String → Except UsageError Args
  | _, [] => if r.verbose then .ok { verbose := true } else .error .nothingGiven
  | true, s :: _ =>
    .error (if isSubcommandName s then .unknownArgument else .invalidSubcommand)
  | false, s :: rest => do
    match Word.ofText s with
    | .separator => readRoot r true rest
    | .long name attached => readRoot (← r.takeLong name attached) false rest
    | .letters cs => readRoot (← r.takeLetters cs) false rest
    | .value =>
      if s = helpWord then .error (readHelp rest)
      else
        match Subcommand.ofName? s with
        | none => .error .invalidSubcommand
        | some sub =>
          let inner ← readAfter sub { switches := sub.switches } false rest
          let command ← inner.command sub
          .ok { verbose := r.verbose || inner.verbose, command := some command }

/-- Reads a command line, given without the name of the program. -/
def Args.ofWords (words : List String) : Except UsageError Args :=
  readRoot { switches := rootSwitches } false words

end ScriptSessions.CommandLine
