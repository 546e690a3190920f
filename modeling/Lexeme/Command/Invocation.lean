/-
Lexeme.Command.Invocation — what a run is asked to do.

A flag that is not given can be set by an environment variable. The variable is
looked at for each place of the command line where the flag could stand and
does not, so it must be in order unless the flag is given in both places; the
flag still beats it.
-/
import Lexeme.Command.Line
import Lexeme.Files.Path

namespace Lexeme.Command

/-- The environment variables, by name. -/
abbrev Variables := String → Option String

/-- The work of a command. -/
inductive Job where
  /-- List the tokens of one input. -/
  | lex (input : Option String) (format : Option Listing.Format) (noComments : Bool)
  /-- Count the tokens of all inputs. -/
  | check (inputs : List String)
deriving DecidableEq, Repr

/-- A run that is asked for. -/
structure Invocation where
  verbose : Bool
  /-- The path of the settings. -/
  config : Option String
  /-- Whether messages are to have no colour. They have none here in any case. -/
  noColor : Bool
  job : Job
deriving DecidableEq, Repr

/-- The truth value that a variable has. -/
def truth? (value : String) : Option Bool :=
  if value == "true" then some true
  else if value == "false" then some false
  else none

/-- Whether a switch is on; `none` if its variable is looked at and has no truth value. -/
def switchOf (value : Option String) (s : Switch) (a : Arguments) : Option Bool :=
  let given := a.before.has s || a.behind.has s
  if a.before.has s && a.behind.has s then some true
  else
    match value with
    | none => some given
    | some value => (truth? value).map (given || ·)

/-- The path of the settings, if one is given; `none` if its variable is looked at and empty. -/
def configOf (value : Option String) (a : Arguments) : Option (Option String) :=
  let given := a.behind.config <|> a.before.config
  if a.before.config.isSome && a.behind.config.isSome then some given
  else
    match value with
    | none => some given
    | some value => if value.isEmpty then none else some (given <|> some value)

/-- The work that arguments ask for. -/
def jobOf (a : Arguments) : Job :=
  match a.level with
  | .check => .check a.behind.inputs
  | _ => .lex a.behind.inputs.head? a.behind.format (a.behind.has .noComments)

/-- The run that arguments ask for, with the variables that stand in for its flags. -/
def invocationOf (env : Variables) (a : Arguments) : Option Invocation := do
  let verbose ← switchOf (env "TOKT_VERBOSE") .verbose a
  let config ← configOf (env "TOKT_CONFIG") a
  let noColor ← switchOf (env "TOKT_NO_COLOR") .noColor a
  some ⟨verbose, config, noColor, jobOf a⟩

/-- Reads a command line. -/
def Invocation.read (env : Variables) (args : List String) : Except Stop Invocation := do
  orMistake (invocationOf env (← readArguments args))

/-! ## Where the settings are -/

/-- The name of the file that holds the settings. -/
def settingsName : String := "tokt.toml"

/-- The directory of the user, if it is known. -/
def homeDirectory (env : Variables) : Option String :=
  (env "HOME").filter fun path => !path.isEmpty

/-- The directory of the user's settings, if it is known. -/
def settingsDirectory (env : Variables) : Option String :=
  (env "XDG_CONFIG_HOME").filter (·.startsWith "/")
    <|> (homeDirectory env).map (pathIn · ".config")

/-- The settings of this program in a directory of settings. -/
def settingsIn (directory : String) : String :=
  pathIn (pathIn directory "tokt") settingsName

/-- Where the settings are looked for, unless a path is given: here, then in the two directories. -/
def settingsPaths (env : Variables) : List String :=
  settingsName
    :: ((homeDirectory env).map fun home => settingsIn (pathIn home ".config")).toList
    ++ ((settingsDirectory env).map settingsIn).toList

end Lexeme.Command
