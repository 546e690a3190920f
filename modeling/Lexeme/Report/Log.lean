/-
Lexeme.Report.Log — what a command tells about its work.

Each entry has a level; which levels are shown is the reader's choice and
changes nothing else.
-/
import Lexeme.Report.Failure
import Lexeme.Text.Terminal

namespace Lexeme.Log

/-- How much an entry matters. -/
inductive Level where
  | error
  | warn
  | info
  | debug
  | trace
deriving DecidableEq, Repr

namespace Level

/-- Zero for what matters most. -/
def rank : Level → Nat
  | error => 0
  | warn => 1
  | info => 2
  | debug => 3
  | trace => 4

/-- The name a level is printed under. -/
def name : Level → String
  | error => "ERROR"
  | warn => "WARN"
  | info => "INFO"
  | debug => "DEBUG"
  | trace => "TRACE"

end Level

/-- Something that was done or went wrong. -/
inductive Entry where
  /-- A scanner's own event. -/
  | scan (e : ScanEvent)
  /-- The tokens of a text were listed. -/
  | listed (name : String) (tokens : Nat)
  /-- A text was scanned to its end. -/
  | checked (name : String) (tokens : Nat)
  /-- A failure that the command goes on after. -/
  | problem (f : Failure)
deriving DecidableEq, Repr

namespace Entry

/-- The level of an entry. -/
def level : Entry → Level
  | scan (.token _) => .trace
  | scan _ => .debug
  | listed _ _ => .info
  | checked _ _ => .debug
  | problem _ => .error

/-- The message of an entry with its fields, each as `key=value`. A terminal acts on nothing in the
message; a field is written as it is. -/
def message : Entry → String
  | scan (.loaded size) => "loading scanner input len=" ++ toString size
  | scan (.token t) =>
    "token kind=" ++ t.kind.name ++ " start=" ++ toString t.start ++ " text="
      ++ Text.Quoted.text t.text
  | scan (.endOfInput position) => "end of input position=" ++ toString position
  | scan (.failed e) => "scan failed err=" ++ e.message
  | listed name tokens => "scan complete input=" ++ name ++ " tokens=" ++ toString tokens
  | checked name tokens =>
    "checked input=" ++ Text.Quoted.text name ++ " tokens=" ++ toString tokens
  | problem f => Text.Terminal.disarm f.message

/-- An entry as a line: its level and its message. -/
def line (e : Entry) : String :=
  e.level.name ++ " " ++ e.message

end Entry

/-- The least level that is shown: `info`, and `debug` for a verbose log. -/
def threshold (verbose : Bool) : Level :=
  if verbose then .debug else .info

/-- The entries that are shown. -/
def shown (verbose : Bool) (entries : List Entry) : List Entry :=
  entries.filter fun e => e.level.rank ≤ (threshold verbose).rank

end Lexeme.Log
