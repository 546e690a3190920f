/-
Lexeme.Scan.Error — the two ways a text fails to split into tokens.
-/
import Lexeme.Text.Quoted

namespace Lexeme

/-- Why a scan stopped before the end of its text. Offsets count bytes. -/
inductive ScanError where
  /-- A character that starts no token. -/
  | unexpected (offset : Nat) (found : Char)
  /-- A quoted string that is opened and never closed; the offset is that of its opening quote. -/
  | openQuote (offset : Nat)
deriving DecidableEq, Repr

namespace ScanError

/-- Where the scan stopped. -/
def offset : ScanError → Nat
  | unexpected offset _ => offset
  | openQuote offset => offset

/-- The wording of an error. -/
def message : ScanError → String
  | unexpected offset found =>
    "token error at " ++ toString offset ++ ": unexpected character " ++ Text.Quoted.char found
  | openQuote offset => "unterminated quote at " ++ toString offset

end ScanError
end Lexeme
