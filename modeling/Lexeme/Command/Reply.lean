/-
Lexeme.Command.Reply — what the program answers to a command line.
-/
import Lexeme.Command.Run

namespace Lexeme.Command

/-- The version of the program. -/
def versionNumber : String := "0.1.0"

/-- The name that the program has at a level. -/
def Level.programName : Level → String
  | root => "tokt"
  | lex => "tokt-lex"
  | check => "tokt-check"

/-- The version as it is printed. -/
def versionLine (level : Level) : String :=
  level.programName ++ " " ++ versionNumber ++ "\n"

/-- How the program is called. -/
def helpText : String :=
  "Scan source text into tokens\n\n"
    ++ "Usage: tokt [OPTIONS] <COMMAND>\n\n"
    ++ "Commands:\n"
    ++ "  lex [INPUT]        Print the tokens of an input\n"
    ++ "  check [INPUTS]...  Scan inputs and report errors\n"
    ++ "  help [COMMAND]     Print this message\n\n"
    ++ "Options:\n"
    ++ "  -v, --verbose          Print debug messages [env: TOKT_VERBOSE]\n"
    ++ "  -c, --config <CONFIG>  Read the settings from this file [env: TOKT_CONFIG]\n"
    ++ "      --no-color         Print messages without colour [env: TOKT_NO_COLOR]\n"
    ++ "  -F, --format <FORMAT>  lex: the form of the tokens, text or json\n"
    ++ "      --no-comments      lex: leave the comments out\n"
    ++ "  -h, --help             Print help\n"
    ++ "  -V, --version          Print version\n"

/-- What the program answers. -/
inductive Reply where
  /-- The help text, when it is asked for. -/
  | help
  /-- A text that is no more than printed. -/
  | notice (text : String)
  /-- The command line is not one of this program. -/
  | mistake
  /-- A run took place. -/
  | report (r : Report)
deriving DecidableEq, Repr

namespace Reply

/-- The answer to a command line that asks for no run. -/
def ofStop : Stop → Reply
  | .help => help
  | .version level => notice (versionLine level)
  | .mistake => mistake

/-- The answer to a command line. -/
def answer (env : Variables) (files : Files) (standardInput : Reading) (args : List String) :
    Reply :=
  match Invocation.read env args with
  | .error stop => ofStop stop
  | .ok inv => report (run files standardInput (settingsPaths env) inv)

/-- Two for a mistake in the command line, one for a run that failed. -/
def exitCode : Reply → Nat
  | mistake => 2
  | report r => r.exitCode
  | _ => 0

/-- What goes to standard output. -/
def output : Reply → String
  | help => helpText
  | notice text => text
  | mistake => ""
  | report r => r.output

/-- The lines of the log. -/
def logLines : Reply → List String
  | report r => r.log.map Log.Entry.line
  | _ => []

/-- The line that tells why a run failed. -/
def errorLine : Reply → Option String
  | report r => r.failure.map fun f => "Error: " ++ f.message
  | _ => none

end Reply
end Lexeme.Command
