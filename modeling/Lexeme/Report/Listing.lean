/-
Lexeme.Report.Listing — the tokens of a text, a line each.

Tokens are listed as they are read, so the lines before an error stand.
-/
import Lexeme.Report.Failure
import Lexeme.Scan.Tokens

namespace Lexeme

namespace Listing

/-- The form of a listing. -/
inductive Format where
  /-- Kind, start and quoted text. -/
  | plain
  /-- A JSON object. -/
  | json
deriving DecidableEq, Repr, Inhabited

/-- The formats by the names they are chosen with. -/
def Format.ofName? (name : String) : Option Format :=
  if name == "text" then some .plain
  else if name == "json" then some .json
  else none

/-- The name a format is chosen with. -/
def Format.name : Format → String
  | plain => "text"
  | json => "json"

/-- A token as a line, its line feed included. -/
def Format.line (format : Format) (t : Token) : String :=
  match format with
  | plain => t.plain ++ "\n"
  | json => t.json ++ "\n"

end Listing

/-- A listing that was written, as far as the text could be scanned. -/
structure Listing where
  /-- The lines. -/
  output : String
  /-- The number of lines, or what stopped the scan. -/
  result : Except Diagnostic Nat
  /-- What the scanner reported. -/
  events : List ScanEvent

namespace Listing

/-- Writes the tokens of a scanner behind what is written: `output`, which holds `count` lines.
The events so far are the latest first. -/
def writeWithin (name : String) (format : Format) (comments : Bool) :
    Nat → String → Nat → List ScanEvent → Scanner → Listing
  | 0, output, count, events, _ => ⟨output, .ok count, events.reverse⟩
  | n + 1, output, count, events, s =>
    let step := s.next
    let events := step.event.toList ++ events
    match step.outcome with
    | .endOfInput => ⟨output, .ok count, events.reverse⟩
    | .failed e => ⟨output, .error (.ofScanner name step.after e), events.reverse⟩
    | .token t =>
      if t.kind = .comment ∧ comments = false then
        writeWithin name format comments n output count events step.after
      else
        writeWithin name format comments n (output ++ format.line t) (count + 1) events step.after

/-- Lists the tokens of a text, without its comments unless they are wanted. -/
def write (name source : String) (format : Format) (comments : Bool) : Listing :=
  let s := Scanner.ofString source
  writeWithin name format comments s.callBound "" 0 [Scanner.loading source] s

end Listing
end Lexeme
