/-
Lexeme.Report.Failure — why a command did not do all of its work.

A scan error is reported with the place it was met at, so that an editor can
jump to it: name, line and column, then the wording of the error.
-/
import Lexeme.Files.Reading
import Lexeme.Scan.Scanner

namespace Lexeme

/-- A scan error with its place. -/
structure Diagnostic where
  /-- The name of the text. -/
  name : String
  line : Nat
  column : Nat
  cause : ScanError
deriving DecidableEq, Repr

namespace Diagnostic

/-- The place is where the scanner stands: it never passes a character that it refuses. -/
def ofScanner (name : String) (s : Scanner) (cause : ScanError) : Diagnostic :=
  ⟨name, s.cursor.line, s.cursor.column, cause⟩

/-- Name, line, column and error, with colons between. -/
def message (d : Diagnostic) : String :=
  d.name ++ ":" ++ toString d.line ++ ":" ++ toString d.column ++ ": " ++ d.cause.message

end Diagnostic

/-- Why a command failed. -/
inductive Failure where
  /-- The settings are missing or malformed. -/
  | settings (detail : String)
  /-- A file given as input could not be read. -/
  | file (detail : String)
  /-- The inputs are not all in order. -/
  | validation (detail : String)
  /-- An input does not split into tokens. -/
  | scan (d : Diagnostic)
  /-- A stream or the file of the settings could not be read. -/
  | io (why : ReadError)
deriving DecidableEq, Repr

namespace Failure

/-- The settings were asked for at a path where nothing is. -/
def settingsNotFound (path : String) : Failure :=
  .settings ("Configuration file not found: " ++ path)

/-- The settings are not a document of the right form. -/
def settingsMalformed : Failure :=
  .settings "Failed to parse configuration"

/-- The input at a path could not be read. -/
def unreadable (path : String) (why : ReadError) : Failure :=
  .file (path ++ ": " ++ why.message)

/-- So many inputs could not be read or scanned. -/
def failedInputs (count : Nat) : Failure :=
  .validation (toString count ++ " file(s) failed to scan")

/-- The wording of a failure. -/
def message : Failure → String
  | settings detail => "Configuration error: " ++ detail
  | file detail => "File operation failed: " ++ detail
  | validation detail => "Validation error: " ++ detail
  | scan d => d.message
  | io why => "IO error: " ++ why.message

end Failure
end Lexeme
