/-
Lexeme.Toml.Grammar — the values and the statements of a TOML document.

  §1 Values      — scalars, arrays and inline tables, nested to a depth.
  §2 Statements  — headers and assignments, one a line.
-/
import Lexeme.Toml.Moment

namespace Lexeme.Toml

/-! ## §1 Values -/

/-- What is left behind a word. -/
def word? : List Char → List Char → Option (List Char)
  | [], cs => some cs
  | _ :: _, [] => none
  | w :: ws, c :: cs => if w == c then word? ws cs else none

/-- Truth values. -/
def booleanValue : Reader Item := fun cs =>
  match word? ['t', 'r', 'u', 'e'] cs with
  | some rest => some (.boolean true, rest)
  | none => (word? ['f', 'a', 'l', 's', 'e'] cs).map fun rest => (.boolean false, rest)

/-- A value that holds no others. -/
def scalar : Reader Item := fun cs =>
  match stringValue cs with
  | some (s, rest) => some (.string s, rest)
  | none => booleanValue cs <|> moment cs <|> digitFloat cs <|> wordFloat cs <|> integer cs

/-- The items of an array from the next one on, at most so many. A comma may follow the last. -/
def arrayItems (item : Reader Item) : Nat → Reader (List Item)
  | 0, _ => none
  | n + 1, cs => do
    match ← skipGap false cs with
    | ']' :: cs => some ([], cs)
    | cs => do
      let (x, cs) ← item cs
      match ← skipGap false cs with
      | ',' :: cs => do
        let (xs, cs) ← arrayItems item n cs
        some (x :: xs, cs)
      | ']' :: cs => some ([x], cs)
      | _ => none

/-- An assignment: a key and an item. -/
structure Assignment where
  path : List String
  key : String
  item : Item

/-- An assignment, with no blanks behind it passed. -/
def assignment (item : Reader Item) : Reader Assignment := fun cs => do
  let ((path, k), cs) ← key cs
  let cs ← expect? '=' cs
  let (x, cs) ← item (skipBlanks cs)
  some (⟨path, k, x⟩, cs)

/-- The entries of an inline table from the next one on, at most so many, added to those before. -/
def inlineEntries (item : Reader Item) : Nat → Entries → Reader Entries
  | 0, _, _ => none
  | n + 1, es, cs => do
    let (a, cs) ← assignment item cs
    let es ← addAt? es a.path a.key a.item
    match skipBlanks cs with
    | ',' :: cs => inlineEntries item n es cs
    | '\x7d' :: cs => some (es, cs)
    | _ => none

/-- An inline table, its opening brace being passed. -/
def inlineTable (item : Reader Item) : Reader Item := fun cs =>
  match skipBlanks cs with
  | '\x7d' :: rest => some (.table .inline [], rest)
  | _ => (inlineEntries item cs.length [] cs).map fun (es, rest) => (.table .inline es, rest)

/-- A value with no more than so many levels of arrays and inline tables. -/
def value : Nat → Reader Item
  | 0 => scalar
  | depth + 1 => fun cs =>
    match cs with
    | '[' :: cs => (arrayItems (value depth) (cs.length + 1) cs).map fun (xs, rest) =>
        (.array xs, rest)
    | '\x7b' :: cs => inlineTable (value depth) cs
    | cs => scalar cs

/-! ## §2 Statements -/

/-- A line that says something. -/
inductive Statement where
  /-- From here on in the table at a path. -/
  | header (path : List String) (key : String)
  /-- From here on in a new table of the array at a path. -/
  | element (path : List String) (key : String)
  /-- An entry of the table that is being written. -/
  | assign (a : Assignment)

/-- The rest of a header, its opening brackets being passed. -/
def header : Reader (List String × String) := fun cs => do
  let (k, cs) ← key cs
  let cs ← expect? ']' cs
  some (k, cs)

/-- A statement with the rest of its line. -/
def statement : Reader Statement
  | '[' :: '[' :: cs => do
    let ((path, k), cs) ← header cs
    let cs ← expect? ']' cs
    some (.element path k, ← restOfLine? cs)
  | '[' :: cs => do
    let ((path, k), cs) ← header cs
    some (.header path k, ← restOfLine? cs)
  | cs => do
    let (a, cs) ← assignment (value depthLimit) cs
    some (.assign a, ← restOfLine? cs)

/-- The statements of the lines that are left, at most so many lines. -/
def statementsWithin : Nat → List Char → Option (List Statement)
  | 0, _ => none
  | n + 1, cs =>
    match skipBlanks cs with
    | [] => some []
    | c :: cs =>
      if c == '#' || c == '\n' || c == '\r' then do
        statementsWithin n (← restOfLine? (c :: cs))
      else do
        let (s, rest) ← statement (c :: cs)
        let ss ← statementsWithin n rest
        some (s :: ss)

/-- The mark that a text may begin with to show its encoding. -/
def byteOrderMark : Char := '\uFEFF'

/-- The statements of a document. -/
def statements (source : String) : Option (List Statement) :=
  match source.toList with
  | c :: cs =>
    if c == byteOrderMark then statementsWithin (cs.length + 1) cs
    else statementsWithin (cs.length + 2) (c :: cs)
  | [] => some []

end Lexeme.Toml
