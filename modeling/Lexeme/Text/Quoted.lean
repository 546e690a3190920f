/-
Lexeme.Text.Quoted — texts and characters between marks, on one line.

A quoted text stands between double quotes, a quoted character between single
ones. The mark itself, the backslash and the common controls are written with
a backslash and a letter; any other invisible character is written by its
number, `\u`, then lower-case hexadecimal in braces.
-/
import Lexeme.Text.Invisible

namespace Lexeme.Text.Quoted

/-- The mark around a text. -/
def textMark : Char := '"'

/-- The mark around a single character. -/
def charMark : Char := '\x27'

/-- An invisible character by its number, without leading zeros. -/
def byNumber (c : Char) : List Char :=
  ['\\', 'u', '\x7b'] ++ Nat.toDigits 16 c.toNat ++ ['\x7d']

/-- How one character is written between two `mark`s. -/
def escape (mark c : Char) : List Char :=
  if c = '\x00' then ['\\', '0']
  else if c = '\t' then ['\\', 't']
  else if c = '\r' then ['\\', 'r']
  else if c = '\n' then ['\\', 'n']
  else if c = '\\' then ['\\', '\\']
  else if c = mark then ['\\', mark]
  else if isInvisible c then byNumber c
  else [c]

/-- A text between double quotes. -/
def text (s : String) : String :=
  String.ofList (textMark :: (s.toList.flatMap (escape textMark) ++ [textMark]))

/-- A character between single quotes. -/
def char (c : Char) : String :=
  String.ofList (charMark :: (escape charMark c ++ [charMark]))

end Lexeme.Text.Quoted
