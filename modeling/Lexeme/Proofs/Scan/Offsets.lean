/-
Lexeme.Proofs.Scan.Offsets — the same findings at other offsets.

Texts that are alike are scanned alike, and differ only in where things stand
in them. `moved` puts another offset in the place of each, and `Step.Farther`
compares two calls of which one finds the same so many bytes farther on.
-/
import Lexeme.Scan.Scanner

namespace Lexeme

/-- The same token at another offset. -/
def Token.moved (f : Nat → Nat) (t : Token) : Token :=
  { t with start := f t.start }

/-- The same error at another offset. -/
def ScanError.moved (f : Nat → Nat) : ScanError → ScanError
  | unexpected offset found => unexpected (f offset) found
  | openQuote offset => openQuote (f offset)

/-- The same event at another offset. The size of a text that is loaded is none. -/
def ScanEvent.moved (f : Nat → Nat) : ScanEvent → ScanEvent
  | loaded size => loaded size
  | token t => token (t.moved f)
  | endOfInput position => endOfInput (f position)
  | failed e => failed (e.moved f)

/-- The same outcome at another offset. -/
def Outcome.moved (f : Nat → Nat) : Outcome → Outcome
  | token t => token (t.moved f)
  | endOfInput => endOfInput
  | failed e => failed (e.moved f)

/-- What one call finds and reports another does `distance` bytes farther on, and so much farther
on is the scanner after it, and the place where the call began to read. -/
structure Step.Farther (distance : Nat) (here there : Step) : Prop where
  outcome : there.outcome = here.outcome.moved (distance + ·)
  event : there.event = here.event.map (ScanEvent.moved (distance + ·))
  position : there.after.cursor.position = distance + here.after.cursor.position
  mark : there.after.mark.position = distance + here.after.mark.position

end Lexeme
