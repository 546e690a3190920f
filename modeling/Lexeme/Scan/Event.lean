/-
Lexeme.Scan.Event — what a scanner tells about its work.
-/
import Lexeme.Scan.Error
import Lexeme.Token.Basic

namespace Lexeme

/-- Something a scanner did. -/
inductive ScanEvent where
  /-- A text of so many bytes was loaded. -/
  | loaded (size : Nat)
  /-- A token was read. -/
  | token (t : Token)
  /-- The end of the text was met. -/
  | endOfInput (position : Nat)
  /-- The scan failed. -/
  | failed (e : ScanError)
deriving DecidableEq, Repr

end Lexeme
