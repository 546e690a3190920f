/-
Lexeme.Toml.Layout — blanks, line ends and comments of a TOML document.

All readers of the document take the characters that are left and give back
what they read with those behind it; `none` says that the document is
malformed, or that something else has to be tried there.
-/
namespace Lexeme.Toml

/-- Reads a thing from the front of the characters that are left. -/
abbrev Reader (α : Type) := List Char → Option (α × List Char)

/-- A blank inside a line: space or tab. -/
def isBlank (c : Char) : Bool :=
  c == ' ' || c == '\t'

/-- A character that may stand in a comment or a string: no control but the tab. -/
def isText (c : Char) : Bool :=
  c == '\t' || (0x20 ≤ c.toNat && c.toNat != 0x7F)

/-- What is left behind blanks. -/
def skipBlanks (cs : List Char) : List Char :=
  cs.dropWhile isBlank

/-- What is left behind a comment, if one starts here. -/
def skipComment : List Char → List Char
  | '#' :: cs => cs.dropWhile isText
  | cs => cs

/-- What is left behind a line end: LF, or CR and LF. -/
def lineFeed? : List Char → Option (List Char)
  | '\n' :: cs => some cs
  | '\r' :: '\n' :: cs => some cs
  | _ => none

/-- What is left behind a line end or the end of the document. -/
def lineEnd? : List Char → Option (List Char)
  | [] => some []
  | cs => lineFeed? cs

/-- What is left behind the end of a line that holds no more than blanks and a comment. -/
def restOfLine? (cs : List Char) : Option (List Char) :=
  lineEnd? (skipComment (skipBlanks cs))

/-- What is left behind blanks, line ends and comments, which an array has between its items. The
flag tells that the characters begin inside a comment, which must end with its line. -/
def skipGap : Bool → List Char → Option (List Char)
  | true, [] => none
  | false, [] => some []
  | _, '\n' :: cs => skipGap false cs
  | _, '\r' :: '\n' :: cs => skipGap false cs
  | true, c :: cs => if isText c then skipGap true cs else none
  | false, c :: cs =>
    if isBlank c then skipGap false cs
    else if c == '#' then skipGap true cs
    else some (c :: cs)

end Lexeme.Toml
