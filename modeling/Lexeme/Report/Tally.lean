/-
Lexeme.Report.Tally — the number of tokens of a text.
-/
import Lexeme.Report.Log
import Lexeme.Scan.Tokens

namespace Lexeme

/-- A text that was counted, as far as it could be scanned. -/
structure Tally where
  /-- The number of tokens, or what stopped the scan. -/
  result : Except Diagnostic Nat
  /-- What was reported on the way. -/
  log : List Log.Entry

namespace Tally

/-- Counts the tokens of a scanner, of which `count` are passed. The log so far has the latest
entry first. -/
def countWithin (name : String) : Nat → Nat → List Log.Entry → Scanner → Tally
  | 0, count, log, _ => ⟨.ok count, (Log.Entry.checked name count :: log).reverse⟩
  | n + 1, count, log, s =>
    let step := s.next
    let log := (step.event.map Log.Entry.scan).toList ++ log
    match step.outcome with
    | .endOfInput => ⟨.ok count, (Log.Entry.checked name count :: log).reverse⟩
    | .failed e => ⟨.error (.ofScanner name step.after e), log.reverse⟩
    | .token _ => countWithin name n (count + 1) log step.after

/-- Counts the tokens of a text. -/
def count (name source : String) : Tally :=
  let s := Scanner.ofString source
  countWithin name s.callBound 0 [.scan (Scanner.loading source)] s

end Tally
end Lexeme
