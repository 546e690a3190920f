/-
Lexeme.Settings — what a user may set once for all runs.

The settings are a TOML document with the keys `verbose` and `output`; what is
not set has its default, and other keys are of no interest. A key that is set
must hold a value of its own kind.
-/
import Lexeme.Report.Listing
import Lexeme.Toml.Document

namespace Lexeme

/-- How tokens are listed. -/
structure OutputSettings where
  format : Listing.Format := .plain
  /-- Whether comments are listed. -/
  comments : Bool := true
deriving DecidableEq, Repr, Inhabited

/-- The settings of all commands. -/
structure Settings where
  /-- Whether the log is verbose. -/
  verbose : Bool := false
  output : OutputSettings := {}
deriving DecidableEq, Repr, Inhabited

namespace Settings

open Toml (Item Entries)

/-- The setting under a key: `fallback` if there is none, and `none` if its value is of another
kind. -/
def field (read : Item → Option α) (fallback : α) : Option Item → Option α
  | none => some fallback
  | some item => read item

/-- A truth value. -/
def boolean? : Item → Option Bool
  | .boolean b => some b
  | _ => none

/-- Whether an item is an empty table or an empty array. -/
def isVoid : Item → Bool
  | .array [] => true
  | .table _ [] => true
  | .tables [] => true
  | _ => false

/-- A format: its name, or a table that holds the name as its only key, with nothing under it. -/
def format? : Item → Option Listing.Format
  | .string s => Listing.Format.ofName? s
  | .table _ [(name, item)] => if isVoid item then Listing.Format.ofName? name else none
  | _ => none

/-- How tokens are listed, from the two settings. -/
def outputOf? (format comments : Option Item) : Option OutputSettings := do
  let defaults : OutputSettings := {}
  let format ← field format? defaults.format format
  let comments ← field boolean? defaults.comments comments
  some ⟨format, comments⟩

/-- How tokens are listed: a table with the keys `format` and `comments`, or an array with the two
values in this order. A date has neither. -/
def output? : Item → Option OutputSettings
  | .table _ es => outputOf? (Entries.get? es "format") (Entries.get? es "comments")
  | .array items => outputOf? items[0]? items[1]?
  | .tables items => outputOf? items[0]? items[1]?
  | .moment => outputOf? none none
  | _ => none

/-- The settings that a document holds. -/
def ofEntries? (es : Entries) : Option Settings := do
  let defaults : Settings := {}
  let verbose ← field boolean? defaults.verbose (es.get? "verbose")
  let output ← field output? defaults.output (es.get? "output")
  some ⟨verbose, output⟩

/-- The settings that a text holds. -/
def ofText? (source : String) : Option Settings :=
  (Toml.document source).bind ofEntries?

/-- The settings in the file at a path. -/
def loadFrom (files : Files) (path : String) : Except Failure Settings :=
  if files.isThere path then
    match files.readText path with
    | .error why => .error (.io why)
    | .ok source =>
      match ofText? source with
      | some settings => .ok settings
      | none => .error .settingsMalformed
  else .error (.settingsNotFound path)

/-- The settings in the first of some files that is there, or the defaults. -/
def search (files : Files) (paths : List String) : Except Failure Settings :=
  match paths.find? files.isThere with
  | some path => loadFrom files path
  | none => .ok {}

end Settings
end Lexeme
