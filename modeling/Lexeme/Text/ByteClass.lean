/-
Lexeme.Text.ByteClass — the classes of bytes that decide how a text splits
into tokens.

Every class looks at one byte and holds ASCII alone: a byte of a longer
character is in none of them.
-/
namespace Lexeme.ByteClass

/-- Ends a line: CR or LF. -/
def isLineEnd (b : UInt8) : Bool :=
  b == 0x0D || b == 0x0A

/-- Separates tokens and belongs to none: space, tab, CR or LF. -/
def isBlank (b : UInt8) : Bool :=
  b == 0x20 || b == 0x09 || isLineEnd b

/-- A decimal digit. -/
def isDigit (b : UInt8) : Bool :=
  0x30 ≤ b && b ≤ 0x39

/-- Starts an identifier: an ASCII letter, `_` or `$`. -/
def isWordStart (b : UInt8) : Bool :=
  (0x41 ≤ b && b ≤ 0x5A) || (0x61 ≤ b && b ≤ 0x7A) || b == 0x5F || b == 0x24

/-- Goes on with an identifier: what may start one, or a digit. -/
def isWordPart (b : UInt8) : Bool :=
  isWordStart b || isDigit b

/-- The slash, which starts a division sign or a comment. -/
def slash : UInt8 := 0x2F

/-- The double quote, which opens and closes a quoted string. -/
def quote : UInt8 := 0x22

end Lexeme.ByteClass
