/-
Lexeme.Token.Kind — what a token can be.

An operator is always one character. All of them but the division sign stand
in one table, `operators`: a slash may also begin a comment, so it takes a
second look to tell which one it is.
-/
namespace Lexeme

/-- The kinds of token, operators first. -/
inductive Kind where
  | plus
  | minus
  | multiply
  | divide
  | period
  | backslash
  | colon
  | percent
  | pipe
  | exclamation
  | question
  | pound
  | ampersand
  | semicolon
  | comma
  | leftParen
  | rightParen
  | leftAngle
  | rightAngle
  | leftBrace
  | rightBrace
  | leftBracket
  | rightBracket
  | equals
  | identifier
  | number
  | quote
  | comment
deriving DecidableEq, Repr, Inhabited

namespace Kind

/-- Every kind, in the order of its declaration. -/
def all : List Kind := [
  .plus, .minus, .multiply, .divide, .period, .backslash, .colon, .percent, .pipe, .exclamation,
  .question, .pound, .ampersand, .semicolon, .comma, .leftParen, .rightParen, .leftAngle,
  .rightAngle, .leftBrace, .rightBrace, .leftBracket, .rightBracket, .equals, .identifier,
  .number, .quote, .comment]

/-- The name a kind is printed under. -/
def name : Kind → String
  | plus => "PLUS"
  | minus => "MINUS"
  | multiply => "MULTIPLY"
  | divide => "DIVIDE"
  | period => "PERIOD"
  | backslash => "BACKSLASH"
  | colon => "COLON"
  | percent => "PERCENT"
  | pipe => "PIPE"
  | exclamation => "EXCLAMATION"
  | question => "QUESTION"
  | pound => "POUND"
  | ampersand => "AMPERSAND"
  | semicolon => "SEMI"
  | comma => "COMMA"
  | leftParen => "L_PAREN"
  | rightParen => "R_PAREN"
  | leftAngle => "L_ANG"
  | rightAngle => "R_ANG"
  | leftBrace => "L_BRACE"
  | rightBrace => "R_BRACE"
  | leftBracket => "L_BRACKET"
  | rightBracket => "R_BRACKET"
  | equals => "EQUALS"
  | identifier => "IDENTIFIER"
  | number => "NUMBER"
  | quote => "QUOTE"
  | comment => "COMMENT"

/-- The kind printed under a name. -/
def ofName? (s : String) : Option Kind :=
  all.find? fun k => k.name == s

/-- Whether a token of the kind is a single operator character. -/
def isOperator : Kind → Bool
  | identifier | number | quote | comment => false
  | _ => true

/-- The operators that one character settles, each with its kind. -/
def operators : List (Char × Kind) := [
  ('+', plus), ('-', minus), ('*', multiply), ('.', period), ('\\', backslash), (':', colon),
  ('%', percent), ('|', pipe), ('!', exclamation), ('?', question), ('#', pound),
  ('&', ampersand), (';', semicolon), (',', comma), ('(', leftParen), (')', rightParen),
  ('<', leftAngle), ('>', rightAngle), ('\x7b', leftBrace), ('\x7d', rightBrace),
  ('[', leftBracket), (']', rightBracket), ('=', equals)]

/-- The kind of an operator character. -/
def ofChar? (c : Char) : Option Kind :=
  (operators.find? fun o => o.1 == c).map Prod.snd

/-- The kind of the operator that a byte stands for. -/
def ofByte? (b : UInt8) : Option Kind :=
  (operators.find? fun o => o.1.toNat == b.toNat).map Prod.snd

/-! ## Laws -/

theorem mem_all (k : Kind) : k ∈ all := by
  cases k <;> decide

theorem ofName?_name (k : Kind) : ofName? k.name = some k := by
  cases k <;> decide

/-- The table has a row for every operator but the division sign, and for no other kind. -/
theorem isOperator_iff_mem_operators (k : Kind) :
    k.isOperator = true ↔ k = divide ∨ k ∈ operators.map Prod.snd := by
  cases k <;> decide

/-- The slash is in no row of the table. -/
theorem ofChar?_slash : ofChar? '/' = none := by
  decide

end Kind
end Lexeme
