/-
Lexeme.Toml.Document — from the statements of a document to its table.

Each table is written in one place: it is opened by a header, filled by the
assignments behind it, and stored when the next header comes. A header may
open a table that is only implied so far, and no other one again.
-/
import Lexeme.Toml.Grammar

namespace Lexeme.Toml

/-- Which table is being written. -/
inductive Place where
  /-- That of the document. -/
  | root
  /-- The one under a key of the table at a path. -/
  | table (path : List String) (key : String)
  /-- A new one of the array under a key of the table at a path. -/
  | element (path : List String) (key : String)

/-- A document that is read up to some statement. -/
structure Draft where
  /-- The document without the table that is being written. -/
  root : Entries
  place : Place
  /-- The entries of the table that is being written. -/
  current : Entries

namespace Draft

/-- The draft of an empty document. -/
def empty : Draft :=
  ⟨[], .root, []⟩

/-- What a header finds under its key: the entries to start with. A table can be opened if it is
new or was implied only. -/
def opened? (es : Entries) (key : String) : Option Entries :=
  match es.get? key with
  | none => some []
  | some (.table .implied inner) => some inner
  | some _ => none

/-- The tables of an array that a header adds to. -/
def elements? (es : Entries) (key : String) : Option (List Item) :=
  match es.get? key with
  | none => some []
  | some (.tables items) => some items
  | some _ => none

/-- The entries of the table at a path of the document, as far as it is there. -/
def found? (read : Entries → Option α) (path : List String) (root : Entries) :
    Option α :=
  match path with
  | [] => read root
  | key :: path =>
    match root.get? key with
    | none => read []
    | some (.table _ inner) => found? read path inner
    | some (.tables items) =>
      match items.getLast? with
      | some (.table _ inner) => found? read path inner
      | _ => none
    | some _ => none

/-- Stores the table that is being written. -/
def close (d : Draft) : Option Entries :=
  match d.place with
  | .root => some d.current
  | .table path key =>
    descend .header (fun _ es => do
      let _ ← opened? es key
      some (es.put key (.table .declared d.current))) path .declared d.root
  | .element path key =>
    descend .header (fun _ es => do
      let items ← elements? es key
      some (es.put key (.tables (items ++ [.table .declared d.current])))) path .declared d.root

/-- Takes the next statement in. -/
def take (d : Draft) : Statement → Option Draft
  | .assign a => do
    let current ← addAt? d.current a.path a.key a.item
    some { d with current := current }
  | .header path key => do
    let root ← d.close
    let current ← found? (opened? · key) path root
    some ⟨root, .table path key, current⟩
  | .element path key => do
    let root ← d.close
    let _ ← found? (elements? · key) path root
    some ⟨root, .element path key, []⟩

end Draft

/-- The table of a document; `none` if the document is malformed. -/
def document (source : String) : Option Entries := do
  let draft ← (← statements source).foldlM Draft.take Draft.empty
  draft.close

end Lexeme.Toml
