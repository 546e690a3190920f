/-
Lexeme.Scan.Tokens — scanning to the end.

A loop over a scanner needs no more calls than bytes are left, and one for the
end: every token passes a byte at least. That number bounds the loops here and
in the reports built on them.
-/
import Lexeme.Scan.Scanner

namespace Lexeme
namespace Scanner

/-- A number of calls that reaches the end of the text or an error. -/
def callBound (s : Scanner) : Nat :=
  s.cursor.ahead.length + 1

/-- Gathers tokens behind `got` until there are none or one is an error. -/
def collectWithin : Nat → List Token → Scanner → Except ScanError (List Token) × Scanner
  | 0, got, s => (.ok got.reverse, s)
  | n + 1, got, s =>
    match s.item? with
    | (none, s) => (.ok got.reverse, s)
    | (some (.error e), s) => (.error e, s)
    | (some (.ok t), s) => collectWithin n (t :: got) s

/-- Gathers the tokens that are left, or finds the error before the end. On a scanner that has
failed already nothing is left. -/
def collect (s : Scanner) : Except ScanError (List Token) × Scanner :=
  collectWithin s.callBound [] s

/-- What a scanner reports in so many calls. -/
def eventsOf : Nat → Scanner → List ScanEvent
  | 0, _ => []
  | n + 1, s =>
    let step := s.next
    step.event.toList ++ eventsOf n step.after

/-- What is reported from the loading of a text through so many calls. -/
def trace (source : String) (calls : Nat) : List ScanEvent :=
  loading source :: eventsOf calls (ofString source)

end Scanner

/-- The tokens of a text, or the error that stops its scan. -/
def tokenize (source : String) : Except ScanError (List Token) :=
  (Scanner.ofString source).collect.1

end Lexeme
