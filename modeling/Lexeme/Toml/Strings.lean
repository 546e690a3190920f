/-
Lexeme.Toml.Strings — the strings and the keys of a TOML document.

A string is basic, with escapes, or literal, without any; both come on one
line between single marks and on several between triple ones. Three marks
close a string of several lines, and up to two more before them belong to it.

  §1 Escapes
  §2 Strings on one line
  §3 Strings on several lines
  §4 Keys
-/
import Lexeme.Toml.Layout

namespace Lexeme.Toml

/-! ## §1 Escapes -/

/-- The value of a hexadecimal digit. -/
def hexValue? (c : Char) : Option Nat :=
  if '0' ≤ c ∧ c ≤ '9' then some (c.toNat - '0'.toNat)
  else if 'a' ≤ c ∧ c ≤ 'f' then some (c.toNat - 'a'.toNat + 10)
  else if 'A' ≤ c ∧ c ≤ 'F' then some (c.toNat - 'A'.toNat + 10)
  else none

/-- The character with this number in hexadecimal; surrogates and numbers too large are none. -/
def charOfHex? (digits : List Char) : Option Char := do
  let values ← digits.mapM hexValue?
  let n := values.foldl (fun n d => 16 * n + d) 0
  if n.isValidChar then some (Char.ofNat n) else none

/-- The character that a backslash and this one stand for. -/
def simpleEscape? : Char → Option Char
  | 'b' => some '\x08'
  | 't' => some '\t'
  | 'n' => some '\n'
  | 'f' => some '\x0c'
  | 'r' => some '\r'
  | '"' => some '"'
  | '\\' => some '\\'
  | _ => none

/-- Puts a character in front of a text that was read. -/
def prepend (c : Char) (read : Option (List Char × List Char)) : Option (List Char × List Char) :=
  read.map fun (text, rest) => (c :: text, rest)

/-! ## §2 Strings on one line -/

/-- The rest of a basic string, its opening quote being passed. -/
def basicRest : Reader (List Char)
  | [] => none
  | '"' :: cs => some ([], cs)
  | '\\' :: 'u' :: a :: b :: c :: d :: cs => do
    prepend (← charOfHex? [a, b, c, d]) (basicRest cs)
  | '\\' :: 'U' :: a :: b :: c :: d :: e :: f :: g :: h :: cs => do
    prepend (← charOfHex? [a, b, c, d, e, f, g, h]) (basicRest cs)
  | '\\' :: c :: cs => do
    prepend (← simpleEscape? c) (basicRest cs)
  | c :: cs => if isText c && c != '\\' then prepend c (basicRest cs) else none

/-- The rest of a literal string, its opening mark being passed. -/
def literalRest : Reader (List Char)
  | [] => none
  | '\x27' :: cs => some ([], cs)
  | c :: cs => if isText c then prepend c (literalRest cs) else none

/-! ## §3 Strings on several lines -/

/-- What is left behind the line end that may follow the opening marks and is no part of the
string. -/
def skipFirstLineEnd (cs : List Char) : List Char :=
  (lineFeed? cs).getD cs

/-- The end of a string, three of its marks being passed: up to two more marks were its last
characters. -/
def closing (mark : Char) : List Char → List Char × List Char
  | a :: b :: cs =>
    if a == mark && b == mark then ([mark, mark], cs)
    else if a == mark then ([mark], b :: cs)
    else ([], a :: b :: cs)
  | [a] => if a == mark then ([mark], []) else ([], [a])
  | [] => ([], [])

/-- Where a basic string of several lines is being read. -/
inductive Margin where
  /-- In its text. -/
  | text
  /-- Behind a backslash at the end of a line, before the line end. -/
  | lineTail
  /-- Behind that line end, in the blanks and line ends that it joins. -/
  | joint
deriving DecidableEq, Repr

/-- The rest of a basic string of several lines, its opening marks being passed. -/
def basicLines : Margin → Reader (List Char)
  | _, [] => none
  | .lineTail, '\n' :: cs => basicLines .joint cs
  | .lineTail, '\r' :: '\n' :: cs => basicLines .joint cs
  | .lineTail, c :: cs => if isBlank c then basicLines .lineTail cs else none
  | .joint, '\n' :: cs => basicLines .joint cs
  | .joint, '\r' :: '\n' :: cs => basicLines .joint cs
  | .joint, ' ' :: cs => basicLines .joint cs
  | .joint, '\t' :: cs => basicLines .joint cs
  | _, '"' :: '"' :: '"' :: cs => some (closing '"' cs)
  | _, '\\' :: 'u' :: a :: b :: c :: d :: cs => do
    prepend (← charOfHex? [a, b, c, d]) (basicLines .text cs)
  | _, '\\' :: 'U' :: a :: b :: c :: d :: e :: f :: g :: h :: cs => do
    prepend (← charOfHex? [a, b, c, d, e, f, g, h]) (basicLines .text cs)
  | _, '\\' :: '\n' :: cs => basicLines .joint cs
  | _, '\\' :: '\r' :: '\n' :: cs => basicLines .joint cs
  | _, '\\' :: c :: cs =>
    if isBlank c then basicLines .lineTail cs
    else do prepend (← simpleEscape? c) (basicLines .text cs)
  | _, '\n' :: cs => prepend '\n' (basicLines .text cs)
  | _, '\r' :: '\n' :: cs => prepend '\n' (basicLines .text cs)
  | _, c :: cs => if isText c && c != '\\' then prepend c (basicLines .text cs) else none

/-- The rest of a literal string of several lines, its opening marks being passed. -/
def literalLines : Reader (List Char)
  | [] => none
  | '\x27' :: '\x27' :: '\x27' :: cs => some (closing '\x27' cs)
  | '\n' :: cs => prepend '\n' (literalLines cs)
  | '\r' :: '\n' :: cs => prepend '\n' (literalLines cs)
  | c :: cs => if isText c then prepend c (literalLines cs) else none

/-- Characters that were read, as a text. -/
def asText (read : Option (List Char × List Char)) : Option (String × List Char) :=
  read.map fun (text, rest) => (String.ofList text, rest)

/-- A string of any form. -/
def stringValue : Reader String
  | '"' :: '"' :: '"' :: cs => asText (basicLines .text (skipFirstLineEnd cs))
  | '"' :: cs => asText (basicRest cs)
  | '\x27' :: '\x27' :: '\x27' :: cs => asText (literalLines (skipFirstLineEnd cs))
  | '\x27' :: cs => asText (literalRest cs)
  | _ => none

/-! ## §4 Keys -/

/-- A character of a key without quotes. -/
def isBare (c : Char) : Bool :=
  c.isAlphanum || c == '_' || c == '-'

/-- One part of a key. -/
def keyPart : Reader String
  | '"' :: cs => asText (basicRest cs)
  | '\x27' :: cs => asText (literalRest cs)
  | cs =>
    if cs.takeWhile isBare = [] then none
    else some (String.ofList (cs.takeWhile isBare), cs.dropWhile isBare)

/-- The most parts that a key may have, and the most levels that values may be nested in. -/
def depthLimit : Nat := 79

/-- A key of at most so many parts, with dots between them and blanks around them. -/
def keyWithin : Nat → Reader (List String)
  | 0, _ => none
  | n + 1, cs => do
    let (part, cs) ← keyPart (skipBlanks cs)
    match skipBlanks cs with
    | '.' :: cs => do
      let (parts, cs) ← keyWithin n cs
      some (part :: parts, cs)
    | cs => some ([part], cs)

/-- A key: the path to a table and the key in that table. -/
def key : Reader (List String × String) := fun cs => do
  let (parts, cs) ← keyWithin depthLimit cs
  some ((parts.dropLast, parts.getLast?.getD ""), cs)

end Lexeme.Toml
