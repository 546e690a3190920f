/-
Lexeme.Toml.Item — what a TOML document holds.

A document is a table: entries with a key and an item each. A table remembers
how it came to be, because that decides whether the document may add to it
later.

  §1 Items    — the data.
  §2 Entries  — looking up, adding and replacing by key.
  §3 Descent  — reaching an inner table by a path of keys.
-/
namespace Lexeme.Toml

/-! ## §1 Items -/

/-- How a table came to be. -/
inductive Origin where
  /-- By a header of its own, or as the document itself. -/
  | declared
  /-- On the way of a header to an inner table. -/
  | implied
  /-- On the way of a dotted key. -/
  | dotted
  /-- As a value in braces. -/
  | inline
deriving DecidableEq, Repr

/-- A value, a table or an array of tables. -/
inductive Item where
  | string (s : String)
  | integer (n : Int)
  /-- A float. No setting is one, so its value is not kept. -/
  | float
  | boolean (b : Bool)
  /-- A date, a time or both. No setting is one, so its value is not kept. -/
  | moment
  | array (items : List Item)
  | table (origin : Origin) (entries : List (String × Item))
  /-- The tables that are declared one by one by headers in double brackets. -/
  | tables (items : List Item)
deriving Repr

/-! ## §2 Entries -/

/-- The entries of a table, in the order in which they were added. -/
abbrev Entries := List (String × Item)

namespace Entries

/-- The item under a key. -/
def get? (es : Entries) (key : String) : Option Item :=
  List.lookup key es

/-- Puts an item under a key, in the place of the one that is there or else behind all. -/
def put : Entries → String → Item → Entries
  | [], key, item => [(key, item)]
  | (k, old) :: es, key, item =>
    if k == key then (key, item) :: es else (k, old) :: put es key item

/-- Adds an entry under a key that is not taken. -/
def add? (es : Entries) (key : String) (item : Item) : Option Entries :=
  match es.get? key with
  | none => some (es ++ [(key, item)])
  | some _ => none

end Entries

/-! ## §3 Descent -/

/-- The way to an inner table: along the parts of a header or those of a dotted key. -/
inductive Way where
  | header
  | key
deriving DecidableEq, Repr

/-- A table that is made on the way. -/
def Way.origin : Way → Origin
  | header => .implied
  | key => .dotted

/-- Whether the way may go through a table. Values are closed, and a dotted key stays out of what
has been declared. -/
def Way.enters (way : Way) (origin : Origin) : Bool :=
  match way, origin with
  | _, .inline => false
  | .key, .declared => false
  | _, _ => true

/-- Changes the entries of the table at the end of a path. Missing tables are made on the way; an
array of tables stands for its last table. -/
def descend (way : Way) (change : Origin → Entries → Option Entries) :
    List String → Origin → Entries → Option Entries
  | [], origin, es => change origin es
  | key :: path, _, es =>
    match es.get? key with
    | none => do
      let inner ← descend way change path way.origin []
      some (es.put key (.table way.origin inner))
    | some (.table origin inner) =>
      if way.enters origin then do
        let inner ← descend way change path origin inner
        some (es.put key (.table origin inner))
      else none
    | some (.tables items) =>
      match items.getLast? with
      | some (.table origin inner) => do
        let inner ← descend way change path origin inner
        some (es.put key (.tables (items.dropLast ++ [.table origin inner])))
      | _ => none
    | some _ => none

/-- Adds an item under a dotted key: the path to a table, and the key in that table. A table that
is reached by a path must have been made by dotted keys. -/
def addAt? (es : Entries) (path : List String) (key : String) (item : Item) : Option Entries :=
  let change (origin : Origin) (es : Entries) : Option Entries :=
    if path.isEmpty || origin == .dotted then es.add? key item else none
  descend .key change path .declared es

end Lexeme.Toml
