/-
Lexeme.Token.Basic — tokens and the two lines they can be listed as.

A token is a piece of a text with its kind and the byte offset it starts at.
-/
import Lexeme.Text.JsonString
import Lexeme.Text.Quoted
import Lexeme.Token.Kind

namespace Lexeme

/-- A classified piece of a text. -/
structure Token where
  kind : Kind
  /-- The characters of the token. -/
  text : String
  /-- The byte offset of its first character. -/
  start : Nat
deriving DecidableEq, Repr, Inhabited

namespace Token

/-- The byte offset just past the token. -/
def stop (t : Token) : Nat :=
  t.start + t.text.utf8ByteSize

/-- First byte and the one past the last. -/
def span (t : Token) : Nat × Nat :=
  (t.start, t.stop)

/-- The plain form: kind, start and quoted text, with a space between. -/
def plain (t : Token) : String :=
  t.kind.name ++ " " ++ toString t.start ++ " " ++ Text.Quoted.text t.text

/-- The JSON form: one object with the keys kind, text and start in this order. -/
def json (t : Token) : String :=
  "\x7b\"kind\":\"" ++ t.kind.name ++ "\",\"text\":" ++ Text.JsonString.encode t.text
    ++ ",\"start\":" ++ toString t.start ++ "\x7d"

end Token
end Lexeme
