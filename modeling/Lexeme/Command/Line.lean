/-
Lexeme.Command.Line — reading a command line.

A command line is a command with its arguments, among flags. Some flags belong
to every command and may stand before and after its name, once each; the later
one counts. Arguments are read in order, and the first thing that settles the
matter does so: a call for help or the version, or a mistake.

  §1 Flags     — which flags there are, and where.
  §2 Levels    — what was given before the command, and behind it.
  §3 Options   — options whose value is still to come.
  §4 Reading   — flags, commands and inputs, argument by argument.
-/
import Lexeme.Report.Listing

namespace Lexeme.Command

/-! ## §1 Flags -/

/-- A place of the command line: before the name of the command, or behind it. -/
inductive Level where
  | root
  | lex
  | check
deriving DecidableEq, Repr

/-- A flag without a value. -/
inductive Switch where
  | verbose
  | noColor
  | noComments
deriving DecidableEq, Repr

/-- A flag with a value. -/
inductive Setting where
  | config
  | format
deriving DecidableEq, Repr

/-- A flag. -/
inductive Flag where
  | switch (s : Switch)
  | setting (s : Setting)
  | help
  | version
deriving DecidableEq, Repr

/-- A flag with the names that it goes by and the level it is limited to, if it is. -/
structure FlagRow where
  flag : Flag
  long : String
  short : Option Char
  only : Option Level

/-- All flags. -/
def flagRows : List FlagRow := [
  ⟨.switch .verbose, "verbose", some 'v', none⟩,
  ⟨.setting .config, "config", some 'c', none⟩,
  ⟨.switch .noColor, "no-color", none, none⟩,
  ⟨.setting .format, "format", some 'F', some .lex⟩,
  ⟨.switch .noComments, "no-comments", none, some .lex⟩,
  ⟨.help, "help", some 'h', none⟩,
  ⟨.version, "version", some 'V', none⟩]

/-- The flags that may be given at a level. -/
def flagsAt (level : Level) : List FlagRow :=
  flagRows.filter fun row => row.only.all (· == level)

/-- The flag with a long name. -/
def longFlag? (level : Level) (name : String) : Option Flag :=
  ((flagsAt level).find? fun row => row.long == name).map FlagRow.flag

/-- The flag with a short name. -/
def shortFlag? (level : Level) (name : Char) : Option Flag :=
  ((flagsAt level).find? fun row => row.short == some name).map FlagRow.flag

/-! ## §2 Levels -/

/-- What was given at one level. -/
structure Given where
  switches : List Switch := []
  config : Option String := none
  format : Option Listing.Format := none
  /-- The inputs, in order. -/
  inputs : List String := []
  /-- A flag that waits for its value, or one whose value is not looked at yet. -/
  pending : Option (Setting × Option String) := none
deriving DecidableEq, Repr

/-- Why a command line asks for no run. -/
inductive Stop where
  /-- Help is asked for. -/
  | help
  /-- The version is asked for. -/
  | version (level : Level)
  /-- It is not a command line of this program. -/
  | mistake
deriving DecidableEq, Repr

/-- What `none` stands for while a command line is read. -/
def orMistake : Option α → Except Stop α
  | some x => .ok x
  | none => .error .mistake

namespace Given

/-- Whether a switch was given. -/
def has (g : Given) (s : Switch) : Bool :=
  g.switches.contains s

/-- Gives a switch, which must not have been given. -/
def turnOn (g : Given) (s : Switch) : Option Given :=
  if g.has s then none else some { g with switches := s :: g.switches }

/-- Gives a setting a value, which it must not have yet. The path of a file is not empty. -/
def assign (g : Given) (s : Setting) (value : String) : Option Given :=
  match s with
  | .config =>
    if g.config.isSome || value.isEmpty then none else some { g with config := some value }
  | .format =>
    match g.format, Listing.Format.ofName? value with
    | none, some format => some { g with format := some format }
    | _, _ => none

/-! ## §3 Options -/

/-- Whether a flag waits for its value. -/
def waits (g : Given) : Bool :=
  match g.pending with
  | some (_, none) => true
  | _ => false

/-- Takes an argument as the value that a flag waits for. -/
def fill (g : Given) (value : String) : Given :=
  { g with pending := g.pending.map fun (s, _) => (s, some value) }

/-- Looks at the value of the flag that came last, which must be there. -/
def settle (g : Given) : Option Given :=
  match g.pending with
  | none => some g
  | some (_, none) => none
  | some (s, some value) => ({ g with pending := none } : Given).assign s value

end Given

/-! ## §4 Reading -/

/-- Whether an argument is a flag, or several short ones: a lone hyphen is not. -/
def isFlagLike (arg : String) : Bool :=
  arg.startsWith "-" && arg != "-"

/-- Reads a flag that is given by itself. -/
def readPlain (level : Level) (g : Given) (flag : Flag) : Except Stop Given := do
  let g ← orMistake g.settle
  match flag with
  | .help => .error .help
  | .version => .error (.version level)
  | .switch s => orMistake (g.turnOn s)
  | .setting s => .ok { g with pending := some (s, none) }

/-- Reads a flag with a value in the same argument. -/
def readWith (g : Given) (flag : Flag) (value : String) : Except Stop Given := do
  match flag with
  | .setting s => orMistake (g.settle.bind fun g => g.assign s value)
  | _ => .error .mistake

/-- Reads short flags in a row. What follows a flag with a value is its value, an equals sign
between them being dropped. -/
def readShort (level : Level) : Given → List Char → Except Stop Given
  | g, [] => .ok g
  | g, c :: cs => do
    match ← orMistake (shortFlag? level c) with
    | .setting s =>
      match cs with
      | [] => readPlain level g (.setting s)
      | '=' :: value => readWith g (.setting s) (String.ofList value)
      | value => readWith g (.setting s) (String.ofList value)
    | flag => readShort level (← readPlain level g flag) cs

/-- Reads a long flag, its two hyphens being dropped. -/
def readLong (level : Level) (g : Given) (arg : List Char) : Except Stop Given := do
  let flag ← orMistake (longFlag? level (String.ofList (arg.takeWhile (· != '='))))
  match arg.dropWhile (· != '=') with
  | [] => readPlain level g flag
  | _ :: value => readWith g flag (String.ofList value)

/-- Reads an argument that is a flag, or several short ones. -/
def readFlag (level : Level) (g : Given) (arg : String) : Except Stop Given :=
  match arg.toList with
  | '-' :: '-' :: name => readLong level g name
  | _ :: names => readShort level g names
  | [] => .error .mistake

/-- Reads an input. The path of a file is not empty, and only `check` has more than one. -/
def readInput (level : Level) (g : Given) (arg : String) : Except Stop Given := do
  let g ← orMistake g.settle
  if level == .root || arg.isEmpty || (level == .lex && !g.inputs.isEmpty) then .error .mistake
  else .ok { g with inputs := g.inputs ++ [arg] }

/-- Reads the arguments behind the name of a command. Behind two hyphens there are no flags. -/
def readCommand (level : Level) : Bool → Given → List String → Except Stop Given
  | _, g, [] => orMistake g.settle
  | flags, g, arg :: args =>
    if flags && isFlagLike arg then
      if arg == "--" then
        if g.waits then .error .mistake else readCommand level false g args
      else do readCommand level flags (← readFlag level g arg) args
    else if flags && g.waits then readCommand level flags (g.fill arg) args
    else do readCommand level flags (← readInput level g arg) args

/-- What a call for help about some commands comes to. -/
def readHelp : List String → Stop
  | [] => .help
  | [name] => if ["lex", "check", "help"].contains name then .help else .mistake
  | _ => .mistake

/-- The arguments of a run: what was given before the command and behind it, and which it is. -/
structure Arguments where
  before : Given
  level : Level
  behind : Given
deriving DecidableEq, Repr

/-- Reads the arguments of a command, and then the value that was left before its name. -/
def readBehind (g : Given) (level : Level) (args : List String) : Except Stop Arguments := do
  let behind ← readCommand level true {} args
  let before ← orMistake g.settle
  .ok ⟨before, level, behind⟩

/-- Reads a command line from its first argument on. -/
def readRoot : Given → List String → Except Stop Arguments
  | _, [] => .error .mistake
  | g, arg :: args =>
    if isFlagLike arg then do
      readRoot (← readFlag .root g arg) args
    else if g.waits then readRoot (g.fill arg) args
    else if arg == "lex" then readBehind g .lex args
    else if arg == "check" then readBehind g .check args
    else if arg == "help" then .error (readHelp args)
    else .error .mistake

/-- Reads a command line. -/
def readArguments (args : List String) : Except Stop Arguments :=
  readRoot {} args

end Lexeme.Command
